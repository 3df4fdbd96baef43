import QueryFilter.Compiler
import QueryFilter.Json

/-! # Settings

The grammar and the options of a compiler as JSON objects.  A member that is missing keeps its
default, and members that are no settings are ignored; a member with a value of the wrong kind makes
the whole object invalid. -/

namespace QueryFilter

/-! ### Values of settings -/

/-- A boolean. -/
def Json.toBool? : Json → Option Bool
  | .bool b => some b
  | _ => none

/-- A text. -/
def Json.toText? : Json → Option String
  | .string text => some text
  | _ => none

/-- A whole number that fits 64 bits without a sign. -/
def Json.toSize? : Json → Option Nat
  | .int n => if 0 ≤ n ∧ n < (1 <<< 64 : Nat) then some n.toNat else none
  | _ => none

/-- An array of texts. -/
def Json.toTexts? : Json → Option (List String)
  | .array items => items.mapM Json.toText?
  | _ => none

namespace MultiWord

def name : MultiWord → String
  | .phrase => "phrase"
  | .splitFreeText => "split_free_text"

def ofName? (name : String) : Option MultiWord :=
  [MultiWord.phrase, .splitFreeText].find? (·.name == name)

/-- The name of a mode, alone or as the key of `null`. -/
def ofJson? : Json → Option MultiWord
  | .string name => ofName? name
  | .object [(name, .null)] => ofName? name
  | _ => none

end MultiWord

/-! ### Settings one by one -/

/-- Sets one setting of a grammar. -/
def Grammar.set? (grammar : Grammar) (key : String) (value : Json) : Option Grammar :=
  match key with
  | "implicit_conjunction" =>
    value.toBool?.map fun b => { grammar with implicitConjunction := b }
  | "max_depth" => value.toSize?.map fun n => { grammar with maxDepth := n }
  | _ => some grammar

/-- Sets one of the options. -/
def Options.set? (options : Options) (key : String) (value : Json) : Option Options :=
  match key with
  | "default_fields" => value.toTexts?.map fun fields => { options with defaultFields := fields }
  | "rename_identifiers" => value.toBool?.map fun b => { options with renameIdentifiers := b }
  | "convert_identifiers" => value.toBool?.map fun b => { options with convertIdentifiers := b }
  | "multi_word_values" =>
    (MultiWord.ofJson? value).map fun mode => { options with multiWordValues := mode }
  | _ => some options

/-! ### Objects of settings -/

/-- The grammar of a JSON object. -/
def Grammar.ofJson? : Json → Option Grammar
  | .object members => members.foldlM (fun grammar (key, value) => grammar.set? key value) {}
  | _ => none

/-- The options of a JSON object. -/
def Options.ofJson? : Json → Option Options
  | .object members => members.foldlM (fun options (key, value) => options.set? key value) {}
  | _ => none

/-- The grammar as a JSON object. -/
def Grammar.toJson (grammar : Grammar) : Json :=
  .object
    [("implicit_conjunction", .bool grammar.implicitConjunction),
     ("max_depth", .int grammar.maxDepth)]

/-- The options as a JSON object. -/
def Options.toJson (options : Options) : Json :=
  .object
    [("default_fields", .array (options.defaultFields.map .string)),
     ("rename_identifiers", .bool options.renameIdentifiers),
     ("convert_identifiers", .bool options.convertIdentifiers),
     ("multi_word_values", .string options.multiWordValues.name)]

/-- The settings of a compiler as a JSON object. -/
def Compiler.toJson (compiler : Compiler) : Json :=
  .object [("config", compiler.options.toJson), ("grammar", compiler.grammar.toJson)]

end QueryFilter
