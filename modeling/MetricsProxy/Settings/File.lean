import MetricsProxy.Files
import MetricsProxy.Settings
import MetricsProxy.Yaml.Value

/-!
# Settings files

A settings file is a YAML document, whose members are settings. Where there is no
file nothing is set; a file that cannot be understood is an error of the whole.
-/
namespace MetricsProxy.Settings

def ofFile (files : Files) (path : Option FilePath) :
    Except SettingsError (List (String × Json)) :=
  match path.map files.read with
  | some (.ok bytes) =>
      match (String.fromUTF8? (ByteArray.mk bytes.toArray)).bind Yaml.members? with
      | some members => .ok members
      | none => .error (.unreadable "")
  | _ => .ok []

end MetricsProxy.Settings
