/-
  Stencil.Config.Codec
  ────────────────────
  How configurations are written and read, over any JSON library.

  The library writes values.  It reads strings, arrays, objects with any keys
  and objects with given fields, each from the front of a text, and tells the
  path to a value that does not fit.  All of that is a parameter, the `Codec`.

  The configuration's own share is here: its parts with their titles and
  fields, what a field that is left out stands for, that what follows the
  configuration in the text is not looked at, and that a configuration that
  was read must be valid.

  `Codec.Lawful` is what a JSON library owes: each of its readers takes what is
  written for a value and stops right behind it, whatever follows.
-/
import Stencil.Config
import Stencil.Config.Misfit

namespace Stencil.Config

/-! ## §1. Readers. -/

/-- A reader of a value at a path, from the front of a text. -/
abbrev Reader (α : Type) := List Segment → List Char → Except Misfit (α × List Char)

/-- Read a value and put it to use. -/
def mapReader {α β : Type} (r : Reader α) (f : α → β) : Reader β := fun path cs =>
  (r path cs).map fun (value, rest) => (f value, rest)

/-- A part of a configuration, of which `σ` has been read so far. -/
structure Part (σ : Type) where
  /-- The part's title. -/
  title : String
  /-- Its fields, in order; the first must be there. -/
  fields : List String
  /-- Nothing read yet. -/
  start : σ
  /-- Has the field been read? -/
  has : σ → String → Bool
  /-- Read a field. -/
  read : σ → String → Reader σ

/-- A JSON library, as far as configurations need one. -/
structure Codec where
  /-- Write a value without blanks. -/
  write : Json → String
  /-- Read a string. -/
  string : Reader String
  /-- Read an array of what the reader reads. -/
  array : {α : Type} → Reader α → Reader (List α)
  /-- Read an object with any keys, in order. -/
  catalog : {α : Type} → Reader α → Reader (Catalog α)
  /-- Read an object with the fields of a part. -/
  part : {σ : Type} → Part σ → Reader σ

namespace Codec

variable (codec : Codec)

/-! ## §2. The three parts. -/

/-- A named type. -/
def structPart : Part (Option String) where
  title := "StructDef"
  fields := ["type"]
  start := none
  has s _ := s.isSome
  read _ _ := mapReader codec.string some

/-- Read a named type. -/
def readStruct : Reader StructDef :=
  mapReader (codec.part codec.structPart) fun s => ⟨s.getD ""⟩

/-- What has been read of a function. -/
structure FunctionDraft where
  /-- The template. -/
  template : Option String
  /-- The inputs. -/
  inputs : Option (List String)

/-- A function. -/
def functionPart : Part FunctionDraft where
  title := "FunctionDef"
  fields := ["template", "inputs"]
  start := ⟨none, none⟩
  has s field := if field = "template" then s.template.isSome else s.inputs.isSome
  read s field :=
    if field = "template" then mapReader codec.string fun v => { s with template := some v }
    else mapReader (codec.array codec.string) fun v => { s with inputs := some v }

/-- Read a function. -/
def readFunction : Reader FunctionDef :=
  mapReader (codec.part codec.functionPart) fun s => ⟨s.template.getD "", s.inputs.getD []⟩

/-- What has been read of a configuration. -/
structure Draft where
  /-- The contract's name. -/
  contractName : Option String
  /-- The types. -/
  structs : Option (Catalog StructDef)
  /-- The functions. -/
  functions : Option (Catalog FunctionDef)

/-- A configuration. -/
def configPart : Part Draft where
  title := "Config"
  fields := ["contract_name", "structs", "functions"]
  start := ⟨none, none, none⟩
  has s field :=
    if field = "contract_name" then s.contractName.isSome
    else if field = "structs" then s.structs.isSome
    else s.functions.isSome
  read s field :=
    if field = "contract_name" then
      mapReader codec.string fun v => { s with contractName := some v }
    else if field = "structs" then
      mapReader (codec.catalog codec.readStruct) fun v => { s with structs := some v }
    else
      mapReader (codec.catalog codec.readFunction) fun v => { s with functions := some v }

/-- Read a configuration. -/
def readConfig : Reader Config :=
  mapReader (codec.part codec.configPart) fun s =>
    ⟨s.contractName.getD "", s.structs.getD .empty, s.functions.getD .empty⟩

end Codec

/-! ## §3. Whole texts. -/

/-- Why a text gives no configuration. -/
inductive LoadError where
  /-- The text cannot be read as a configuration. -/
  | unreadable (source : String) (reason : Misfit)
  /-- It can, but the configuration is invalid. -/
  | invalid (reason : Invalid)

/-- What went wrong, with the name of the text. -/
def LoadError.message (file : String) : LoadError → String
  | unreadable .. => "failed to parse `" ++ file ++ "`"
  | invalid reason => "invalid config: " ++ reason.message

/-- The cause behind the message. -/
def LoadError.cause? : LoadError → Option String
  | unreadable source (.shape path problem rest) => some (shapeText source path problem rest)
  | unreadable _ .malformed => some "malformed JSON"
  | invalid _ => none

/-- The configuration a text stands for. -/
def Codec.load (codec : Codec) (source : String) : Except LoadError Config :=
  match codec.readConfig [] source.toList with
  | .error reason => .error (.unreadable source reason)
  | .ok (config, _) =>
      match config.invalid? with
      | some reason => .error (.invalid reason)
      | none => .ok config

/-! ## §4. What a JSON library owes. -/

/-- The reader takes the written form of a value, whatever follows, and stops
right behind it. -/
def Codec.Reads (codec : Codec) {α : Type} (reader : Reader α) (json : Json) (value : α) : Prop :=
  ∀ path rest, reader path ((codec.write json).toList ++ rest) = .ok (value, rest)

/-- Each field in turn is one of the part's, is read for the first time and
takes what has been read so far one step further. -/
inductive Codec.Fills (codec : Codec) {σ : Type} (p : Part σ) :
    σ → List (String × Json) → σ → Prop
  /-- No fields. -/
  | nil (s : σ) : Fills codec p s [] s
  /-- One more field. -/
  | cons {s s₁ s₂ : σ} {field : String} {json : Json} {fields : List (String × Json)}
      (hfield : p.fields.contains field = true) (hnew : p.has s field = false)
      (hread : codec.Reads (p.read s field) json s₁) (h : Fills codec p s₁ fields s₂) :
      Fills codec p s ((field, json) :: fields) s₂

/-- What is written is read back: strings as they are, arrays and objects if
what is in them is. -/
structure Codec.Lawful (codec : Codec) : Prop where
  /-- Strings over all characters. -/
  string : ∀ s, codec.Reads codec.string (.str s) s
  /-- Arrays of any length, in order. -/
  array : ∀ {α : Type} {item : Reader α} {write : α → Json} {values : List α},
    (∀ value ∈ values, codec.Reads item (write value) value) →
      codec.Reads (codec.array item) (.arr (values.map write)) values
  /-- Objects with any keys, no key twice, in order. -/
  catalog : ∀ {α : Type} {value : Reader α} {write : α → Json} {catalog : Catalog α},
    (∀ entry ∈ catalog.entries, codec.Reads value (write entry.2) entry.2) →
      codec.Reads (codec.catalog value)
        (.obj (catalog.entries.map fun entry => (entry.1, write entry.2))) catalog
  /-- Objects with the fields of a part, its first field among them. -/
  part : ∀ {σ : Type} {p : Part σ} {s : σ} {fields : List (String × Json)} {field : String},
    codec.Fills p p.start fields s → p.fields.head? = some field → p.has s field = true →
      codec.Reads (codec.part p) (.obj fields) s

end Stencil.Config
