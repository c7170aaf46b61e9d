import Keybindings.Document
import Keybindings.Settings.Basic
import Keybindings.Source
import Keybindings.Text.Edit

/-!
Failures of the engine and of the editor that it works for.
-/

namespace Keybindings

inductive HostError where
  | saveFailed (uri reason : String)
  | documentUnavailable (uri : String)
  deriving DecidableEq, Repr

def HostError.message : HostError → String
  | saveFailed uri reason => s!"Save failed for {uri}: {reason}"
  | documentUnavailable uri => s!"Document not available: {uri}"

inductive EngineError where
  | parse (e : ParseError)
  | registry (e : SourceError)
  | host (e : HostError)
  | edit (e : EditError)
  | settings (e : SettingsError)
  | serialization (reason : String)
  deriving Repr

def EngineError.message : EngineError → String
  | parse e => "Parse error: " ++ e.message
  | registry e => "Registry error: " ++ e.message
  | host e => "Host error: " ++ e.message
  | edit e => "Fix error: " ++ e.message
  | settings e => "Configuration error: " ++ e.message
  | serialization reason => "Serialization error: " ++ reason

end Keybindings
