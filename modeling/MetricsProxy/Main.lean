import MetricsProxy.Clock.Unix
import MetricsProxy.Proxy
import MetricsProxy.Settings.Environment
import MetricsProxy.Settings.File
import Std.Time.DateTime.Timestamp

/-!
# The program

Settings come from the environment and the settings file, the agent's id from
its file. Standard input is one client of the first listener: it is served to
its end, which ends the program as a signal would, and the lines that the
destination would get are written to standard output. The log goes to the error
output.
-/
namespace MetricsProxy.Program

def environment : IO (List (String × String)) := do
  let found ← RawSettings.names.mapM fun name => do
    let marked := "WF_" ++ name.toUpper
    return (← IO.getEnv marked).map fun text => (marked, text)
  return found.filterMap id

def fileError : IO.Error → FileError
  | .noFileOrDirectory _ _ _ => .notFound
  | .permissionDenied _ _ _ => .permissionDenied
  | e => .other 0 (toString e)

/-- The bytes of a file, or what reading it ends with. -/
def bytes (path : String) : IO (Except FileError (List UInt8)) :=
  try
    return .ok (← IO.FS.readBinFile path).toList
  catch e => return .error (fileError e)

/-- The file system as far as one file goes. -/
def filesWith (path : FilePath) (content : Except FileError (List UInt8)) : Files :=
  let dirs := (Files.empty.createDirectories [] path.parentParts).1
  match dirs.locate [] path.parts, content with
  | .error _, _ => .empty
  | .ok p, .ok bytes => dirs.put p (.file bytes .full)
  | .ok p, .error e =>
      if there : e ≠ .notFound then dirs.put p (.file [] (.closed e there)) else .empty

def machineName : IO (Except String String) := do
  match ← IO.getEnv "HOSTNAME" with
  | some name => return .ok name
  | none =>
      try
        return .ok (Text.trimText (← IO.FS.readFile "/etc/hostname"))
      catch e => return .error (toString e)

def fileSettings : IO (Except SettingsError (List (String × Json))) := do
  match ← IO.getEnv "WF_CONFIG" with
  | none => return .ok []
  | some name =>
      let path := FilePath.ofString name
      return Settings.ofFile (filesWith path (← bytes name)) (some path)

partial def readToEnd (input : IO.FS.Stream) (before : ByteArray) : IO ByteArray := do
  let chunk ← input.read 65536
  if chunk.isEmpty then return before else readToEnd input (before ++ chunk)

def writeLog (filter : String) (p : Proxy) : IO Unit := do
  let output ← IO.getStderr
  let directives := LogDirective.parseAll filter
  for line in p.log.reverse do
    if LogDirective.shows directives line then
      output.putStrLn s!"{line.level.name} {line.source}: {line.text}"

/-- Every listener gets the address that its settings ask for. -/
def boundAddress (settings : Settings) (n : Nat) : Except String String :=
  .ok ((Proxy.plan settings)[n]?.elim "" fun (port, format) =>
    (settings.listener port format).address)

def serve (settings : Settings) (blank : Proxy) : IO Exit := do
  let idPath := FilePath.ofString settings.idFile
  let files := filesWith idPath (← bytes settings.idFile)
  let fresh := Identity.ofRandom (← IO.getRandomBytes 16).toList
  match Proxy.identify settings files fresh blank with
  | (p, .error _) =>
      writeLog settings.logLevel p
      return .failure
  | (p, .ok ready) =>
      if ready.files ≠ files then
        match ready.files.read idPath with
        | .ok bytes => IO.FS.writeBinFile settings.idFile (ByteArray.mk bytes.toArray)
        | .error _ => pure ()
      let (p, exit) := Proxy.launch settings ready.agentId (boundAddress settings) (fun _ => []) p
      let (p, exit) ← match exit with
        | some exit => pure (p, exit)
        | none => do
            let input ← readToEnd (← IO.getStdin) .empty
            let p := (p.serve (p.started.headD 0) input.toList).drain
            pure (p.onSignal .terminate)
      for line in p.handedOver settings.hostname do
        (← IO.getStdout).putStr line
      writeLog settings.logLevel p
      return exit

def run : IO Exit := do
  let now := Clock.unixSeconds (← Std.Time.Timestamp.now).toSecondsSinceUnixEpoch.val
  let relay := { Relay.create now (.always .deliver) (.always none) with
    registry := Proxy.firstRegistry }
  let blank : Proxy := ⟨relay, [], []⟩
  let machine ← machineName
  let env := Environment.settings (← environment)
  match (← fileSettings).bind fun file => Settings.load [file, env] machine with
  | .ok settings => serve settings blank
  | .error e =>
      let filter := ((← IO.getEnv "WF_LOG_LEVEL").map Text.lowerText).getD "info"
      writeLog filter (blank.say .error Proxy.mainSource
        s!"Invalid configuration, shutting down: {e.message}")
      return .failure

end MetricsProxy.Program

def main : IO UInt32 := do
  return (← MetricsProxy.Program.run).code.toUInt32
