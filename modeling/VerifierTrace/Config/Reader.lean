import VerifierTrace.Config.Basic
import VerifierTrace.Diagnostic
import VerifierTrace.Json.Reader

/-!
# VerifierTrace.Config.Reader

Configurations from JSON objects. Each member names a field and has a value of its type; the first
member that does not is the fault that is reported. Fields without a member keep their defaults.
-/

namespace VerifierTrace

inductive ConfigFault where
  | unknownKey (key : WideText)
  | wrongType (key expected found : String)
  | unreadable (path reason : String)
  | notObject (path : String)
  deriving DecidableEq, Repr

namespace ConfigFault

def message : ConfigFault → String
  | .unknownKey key => "unknown configuration key " ++ key.quote
  | .wrongType key expected found => key ++ " must be " ++ expected ++ ", got " ++ found
  | .unreadable path reason => "cannot read configuration " ++ path ++ ": " ++ reason
  | .notObject path => "configuration " ++ path ++ " must hold a JSON object"

def code : ConfigFault → Code
  | .unknownKey _ => .unknownConfigKey
  | .wrongType .. | .notObject _ => .invalidConfigValue
  | .unreadable .. => .unreadableConfig

def toFault (f : ConfigFault) : Fault :=
  { kind := .config, message := f.message, code := f.code }

end ConfigFault

namespace Config

inductive LoadError where
  | invalid (fault : ConfigFault)
  /-- The document in it has parts that lie too deep in others to be read at all. -/
  | tooDeep (part : Json.Nest)
  deriving DecidableEq, Repr

/-- The names of the types of documents, as messages show them. -/
def typeName : Json → String
  | .null => "NoneType"
  | .bool _ => "bool"
  | .int _ => "int"
  | .real _ => "float"
  | .text _ => "str"
  | .list _ => "list"
  | .mapping _ => "dict"

def asBool (key : String) : Json → Except ConfigFault Bool
  | .bool b => .ok b
  | j => .error (.wrongType key "bool" (typeName j))

def asText (key : String) : Json → Except ConfigFault WideText
  | .text s => .ok s
  | j => .error (.wrongType key "str" (typeName j))

def set (c : Config) (key : WideText) (value : Json) : Except ConfigFault Config :=
  match key with
  | .plain "fold_global_func_calls" =>
    (asBool "fold_global_func_calls" value).map fun b => { c with foldCalls := b }
  | .plain "merge_bare_state_exprs" =>
    (asBool "merge_bare_state_exprs" value).map fun b => { c with mergeBlocks := b }
  | .plain "initial_context_value" =>
    (asText "initial_context_value" value).map fun s => { c with context := s }
  | .plain "frame_base_value" =>
    (asText "frame_base_value" value).map fun s => { c with frameBase := s }
  | _ => .error (.unknownKey key)

def setAll (c : Config) : List (WideText × Json) → Except ConfigFault Config
  | [] => .ok c
  | m :: more =>
    match c.set m.1 m.2 with
    | .error e => .error e
    | .ok c => setAll c more

def ofMembers (members : List (WideText × Json)) : Except ConfigFault Config := setAll {} members

/-- The configuration in the text of a file; `path` is the file's name in messages. -/
def ofText (path : String) (cs : List Char) : Except LoadError Config :=
  match Json.read cs with
  | .error (.tooDeep part) => .error (.tooDeep part)
  | .error e => .error (.invalid (.unreadable path e.message))
  | .ok (.mapping members) => (ofMembers members).mapError .invalid
  | .ok _ => .error (.invalid (.notObject path))

end Config
end VerifierTrace
