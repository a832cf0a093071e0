import MetricsProxy.Decode
import MetricsProxy.Listener.LineReader

/-!
# What a listener makes of a line

Every frame of a connection falls into one of three classes: it is decoded to a
point, it is an error, or it is blank and passed over. Lines that are too long,
that are no UTF-8 or that the format refuses are errors.
-/
namespace MetricsProxy

inductive LineClass where
  | decoded (point : Point)
  | error (cause : Option DecodeError)
  | blank
  deriving DecidableEq

/-- A line of text. Text that is blank in the wider sense of Unicode never
reaches the decoder. -/
def Format.classifyText (format : Format) (now : Int) (text : String) : LineClass :=
  if Text.trim text.toList = [] then .blank
  else
    match format.decode now text with
    | .ok p => .decoded p
    | .error e => .error (some e)

def Format.classify (format : Format) (now : Int) (limit : Nat) : Frame → LineClass
  | .tooLong => .error (some (.lineTooLong limit))
  | .line bytes =>
      match String.fromUTF8? (ByteArray.mk bytes.toArray) with
      | none => .error none
      | some text => format.classifyText now text

end MetricsProxy
