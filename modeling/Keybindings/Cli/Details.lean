import Keybindings.Cli.RunError
import Keybindings.Text.Quoted

/-!
The details of failures: each as the term that it is, with its causes inside and all texts quoted.
-/

namespace Keybindings.Cli.Details

/-- A term with one argument. -/
def applied (name argument : String) : String :=
  name ++ "(" ++ argument ++ ")"

/-- A term with named fields. -/
def withFields (name : String) (fields : List (String × String)) : String :=
  name ++ " \x7b " ++ ", ".intercalate (fields.map fun (k, v) => k ++ ": " ++ v) ++ " \x7d"

def ofParse : ParseError → String
  | .invalidJson cause line column =>
    applied "InvalidJson" (quoted (ParseError.faultMessage cause line column))
  | .notAnArray kind => applied "NotAnArray" (quoted kind)
  | .entryNotObject index kind =>
    withFields "EntryNotObject" [("index", toString index), ("found", quoted kind)]
  | .invalidEntry index cause =>
    withFields "InvalidEntry" [("index", toString index), ("message", quoted cause.message)]

def ofSource : SourceError → String
  | .sourceFailed source reason =>
    withFields "SourceFailed" [("source_name", quoted source), ("reason", quoted reason)]
  | .malformedManifest extension reason =>
    withFields "MalformedManifest" [("extension", quoted extension), ("reason", quoted reason)]
  | .noSources => "NoSources"

def ofHost : HostError → String
  | .saveFailed uri reason =>
    withFields "SaveFailed" [("uri", quoted uri), ("reason", quoted reason)]
  | .documentUnavailable uri => applied "DocumentUnavailable" (quoted uri)

def spanFields (s : Span) : List (String × String) :=
  [("start", toString s.start), ("end", toString s.stop)]

def ofEdit : EditError → String
  | .outOfBounds span size => withFields "OutOfBounds" (spanFields span ++ [("len", toString size)])
  | .notCharBoundary span => withFields "NotCharBoundary" (spanFields span)

def ofSettings : SettingsError → String
  | .parse reason => applied "Parse" (quoted reason)
  | .validation reason => applied "Validation" (quoted reason)
  | .serialization reason => applied "Serialization" (quoted reason)

def ofEngine : EngineError → String
  | .parse e => applied "ParseError" (ofParse e)
  | .registry e => applied "RegistryError" (ofSource e)
  | .host e => applied "HostError" (ofHost e)
  | .edit e => applied "FixError" (ofEdit e)
  | .settings e => applied "ConfigError" (ofSettings e)
  | .serialization reason => applied "SerializationError" (quoted reason)

def ofRun : RunError → String
  | .invalidArgument reason => withFields "InvalidArgument" [("message", quoted reason)]
  | .io reason =>
    applied "Io" (withFields "Custom" [("kind", "Other"), ("error", quoted reason)])
  | .settings reason => applied "Config" (quoted reason)
  | .registry e => applied "Registry" (ofSource e)
  | .host e => applied "Host" (ofHost e)
  | .incompleteRegistry => "IncompleteRegistry"
  | .engine e => applied "Cleaner" (ofEngine e)
  | .problemsFound count => applied "DiagnosticsFound" (toString count)
  | .internal reason => applied "Internal" (quoted reason)

end Keybindings.Cli.Details
