/-
  Stencil.Proofs.Config.RoundTrip
  ───────────────────────────────
  A CONFIGURATION IS READ BACK FROM ITS WRITTEN FORM, whatever follows it and
  whatever lawful JSON library writes and reads.

  `Codec.Reads` says that a reader takes the written form of a value and stops
  right behind it; since it is said over every text that may follow, the parts
  compose.

    • `scanString_escaped` — strings over all characters, in the standard
      library,
    • `reads_array`, `reads_catalog`, `reads_part`, `standard_lawful` — its
      arrays, objects with any keys, and objects with given fields, from the
      readers of what is in them,
    • `reads_config`, `load_written` — whole configurations, from the laws of
      any library alone.

  The fuel of the standard loops is the length of the text; what is written for
  an item or a field is never empty, so it lasts.
-/
import Stencil.Config.Reader
import Stencil.Proofs.Outcome

namespace Stencil.Config

open Json (escapedChar scanString escape? skipSpace isSpace quote compact compactItems compactFields)

/-! ## §1. Strings. -/

/-- The two digits of a control character are read back. -/
theorem hexDigit?_hexPair : ∀ n < 32,
    Json.hexDigit? (Nat.digitChar (n / 16 % 16)) = some (n / 16)
      ∧ Json.hexDigit? (Nat.digitChar (n % 16)) = some (n % 16) := by
  decide

/-- A control character is read back from its digits. -/
theorem escape?_control {c : Char} (h : c.toNat < 0x20) (rest : List Char) :
    escape? ('u' :: '0' :: '0' :: Json.hexPair c.toNat ++ rest) = some (c, 5) := by
  obtain ⟨hhigh, hlow⟩ := hexDigit?_hexPair c.toNat h
  have hzero : Json.hexDigit? '0' = some 0 := by decide
  have hunit : Json.hexUnit? ('0' :: '0' :: Json.hexPair c.toNat ++ rest) = some c.toNat := by
    simp only [Json.hexPair, List.cons_append, List.nil_append, Json.hexUnit?, hzero, hhigh, hlow]
    show some (((0 * 16 + 0) * 16 + c.toNat / 16) * 16 + c.toNat % 16) = some c.toNat
    congr 1
    omega
  have hunits : Json.unitEscape? ('0' :: '0' :: Json.hexPair c.toNat ++ rest) = some (c, 4) := by
    unfold Json.unitEscape?
    rw [hunit]
    -- too small for either half of a pair
    simp only [Option.bind_eq_bind, Option.bind_some]
    rw [if_neg (by simp; omega), if_neg (by simp; omega), Char.ofNat_toNat]
    rfl
  show (Json.unitEscape? ('0' :: '0' :: Json.hexPair c.toNat ++ rest)).map _ = _
  rw [hunits]
  rfl

/-- A character is written as it is, or behind a backslash in a way that is
read back. -/
theorem escapedChar_cases (c : Char) :
    (∃ tail, escapedChar c = '\\' :: tail
        ∧ ∀ rest, escape? (tail ++ rest) = some (c, tail.length))
      ∨ (escapedChar c = [c] ∧ c ≠ '"' ∧ c ≠ '\\' ∧ ¬ c.toNat < 0x20) := by
  unfold escapedChar
  split
  next h => subst h; exact .inl ⟨['"'], rfl, fun _ => rfl⟩
  next hquote =>
  split
  next h => subst h; exact .inl ⟨['\\'], rfl, fun _ => rfl⟩
  next hslash =>
  split
  next h => subst h; exact .inl ⟨['b'], rfl, fun _ => rfl⟩
  split
  next h => subst h; exact .inl ⟨['f'], rfl, fun _ => rfl⟩
  split
  next h => subst h; exact .inl ⟨['n'], rfl, fun _ => rfl⟩
  split
  next h => subst h; exact .inl ⟨['r'], rfl, fun _ => rfl⟩
  split
  next h => subst h; exact .inl ⟨['t'], rfl, fun _ => rfl⟩
  split
  next hcontrol => exact .inl ⟨'u' :: '0' :: '0' :: Json.hexPair c.toNat, rfl,
    fun rest => escape?_control hcontrol rest⟩
  next hplain => exact .inr ⟨rfl, hquote, hslash, hplain⟩

/-- **The characters of a string are read back,** up to the closing quote. -/
theorem scanString_escaped (rest : List Char) : ∀ chars : List Char,
    scanString (chars.flatMap escapedChar ++ '"' :: rest) = some (chars, rest)
  | [] => by
      rw [List.flatMap_nil, List.nil_append, scanString, if_pos rfl]
  | c :: chars => by
      have ih := scanString_escaped rest chars
      rw [List.flatMap_cons, List.append_assoc]
      rcases escapedChar_cases c with ⟨tail, htail, hescape⟩ | ⟨hplain, hquote, hslash, hcontrol⟩
      · rw [htail, List.cons_append, scanString, if_neg (by decide), if_pos rfl, hescape]
        simp [ih]
      · rw [hplain, List.singleton_append, scanString, if_neg hquote, if_neg hslash,
          if_neg hcontrol, ih]
        rfl

theorem toList_quote (s : String) :
    (quote s).toList = '"' :: (s.toList.flatMap escapedChar ++ ['"']) := by
  simp [quote]

/-! ## §2. Readers and written forms. -/

theorem skipSpace_cons {c : Char} (h : isSpace c = false) (cs : List Char) :
    skipSpace (c :: cs) = c :: cs := by
  simp [skipSpace, h]

theorem toList_compact_str (s : String) : (compact (.str s)).toList = (quote s).toList := by
  rw [compact]

theorem toList_compact_arr (items : List Json) :
    (compact (.arr items)).toList = '[' :: ((compactItems items).toList ++ [']']) := by
  simp [compact]

theorem toList_compact_obj (fields : List (String × Json)) :
    (compact (.obj fields)).toList = '{' :: ((compactFields fields).toList ++ ['}']) := by
  simp [compact]

/-- A written value starts with a character that is no blank and closes no
array. -/
theorem compact_starts (json : Json) :
    ∃ c cs, json.compact.toList = c :: cs ∧ isSpace c = false ∧ c ≠ ']' := by
  cases json with
  | null => exact ⟨'n', ['u', 'l', 'l'], by rw [compact]; rfl, by decide, by decide⟩
  | str value =>
    exact ⟨'"', _, by rw [toList_compact_str, toList_quote], by decide, by decide⟩
  | arr items => exact ⟨'[', _, toList_compact_arr items, by decide, by decide⟩
  | obj fields => exact ⟨'{', _, toList_compact_obj fields, by decide, by decide⟩

theorem standard_write (json : Json) : Codec.standard.write json = json.compact := rfl

theorem reads_string (s : String) : Codec.standard.Reads readString (.str s) s := by
  intro path rest
  unfold readString
  rw [standard_write, toList_compact_str, toList_quote, List.cons_append, List.append_assoc,
    skipSpace_cons (by decide)]
  simp [scanString_escaped]

/-! ## §3. Arrays. -/

/-- Texts with a comma before each but the first of all. -/
def separated : Bool → List (List Char) → List Char
  | _, [] => []
  | first, text :: texts => (if first then [] else [',']) ++ text ++ separated false texts

/-- No text is empty, so there are at most as many as characters. -/
theorem length_le_separated : ∀ (first : Bool) {texts : List (List Char)},
    (∀ text ∈ texts, text ≠ []) → texts.length ≤ (separated first texts).length
  | _, [], _ => by simp
  | first, text :: texts, h => by
      obtain ⟨htext, htexts⟩ := List.forall_mem_cons.mp h
      have hrest := length_le_separated false htexts
      have hpos := List.length_pos_iff.mpr htext
      simp only [separated, List.length_append, List.length_cons]
      omega

theorem toList_compactItems : ∀ items : List Json,
    (compactItems items).toList = separated true (items.map fun item => item.compact.toList)
  | [] => by simp [compactItems, separated]
  | [item] => by simp [compactItems, separated]
  | item :: next :: items => by
      have ih := toList_compactItems (next :: items)
      rw [compactItems]
      · simp only [String.toList_append, ih]
        simp [separated]
      · simp

/-- An item comes, past the comma if it is not the first. -/
theorem nextItem_item (first : Bool) {c : Char} (hspace : isSpace c = false) (hclose : c ≠ ']')
    (cs : List Char) :
    nextItem first ((if first then [] else [',']) ++ c :: cs) = .ok (true, c :: cs) := by
  cases first with
  | true =>
    show nextItem true (c :: cs) = _
    unfold nextItem
    rw [skipSpace_cons hspace]
    split
    next heq => simp at heq
    next heq => exact absurd (List.cons.inj heq).1 hclose
    next heq => rw [if_pos rfl, heq]
  | false =>
    show nextItem false (',' :: c :: cs) = _
    unfold nextItem
    rw [skipSpace_cons rfl]
    split
    next heq => simp at heq
    next heq => exact absurd (List.cons.inj heq).1 (by decide)
    next heq =>
      obtain ⟨rfl, rfl⟩ := List.cons.inj heq
      rw [if_neg Bool.false_ne_true, if_pos rfl, skipSpace_cons hspace]
      split
      next heq => simp at heq
      next heq => exact absurd (List.cons.inj heq).1 hclose
      next => rfl

/-- The items are read one after the other behind those read before. -/
theorem readItems_written {α : Type} {item : Reader α} {write : α → Json} (path : List Segment)
    (rest : List Char) : ∀ {values : List α} {fuel : Nat} (before : List α),
    (∀ value ∈ values, Codec.standard.Reads item (write value) value) → values.length < fuel →
    readItems item path fuel before
        (separated before.isEmpty (values.map fun value => (write value).compact.toList)
          ++ ']' :: rest)
      = .ok (before ++ values, rest)
  | [], fuel + 1, before, _, _ => by
      rw [List.append_nil]
      rfl
  | value :: values, fuel + 1, before, h, hfuel => by
      obtain ⟨hitem, hitems⟩ := List.forall_mem_cons.mp h
      have ih := readItems_written path rest (before ++ [value]) hitems
        (Nat.lt_of_succ_lt_succ hfuel)
      rw [show (before ++ [value]).isEmpty = false by simp] at ih
      obtain ⟨c, cs, hstart, hspace, hclose⟩ := compact_starts (write value)
      rw [List.map_cons, separated, readItems, List.append_assoc, List.append_assoc]
      -- the separator and the start of the item are passed, then the item itself
      rw [hstart, List.cons_append, nextItem_item _ hspace hclose, ← List.cons_append, ← hstart]
      show (item _ ((Codec.standard.write (write value)).toList ++ _) >>= _) = _
      rw [hitem]
      show readItems item path fuel (before ++ [value]) _ = _
      rw [ih, List.append_assoc, List.singleton_append]

/-- **Arrays are read back if their items are.** -/
theorem reads_array {α : Type} {item : Reader α} {write : α → Json} {values : List α}
    (h : ∀ value ∈ values, Codec.standard.Reads item (write value) value) :
    Codec.standard.Reads (readArray item) (.arr (values.map write)) values := by
  intro path rest
  have hwritten : ∀ text ∈ values.map fun value => (write value).compact.toList, text ≠ [] := by
    intro text htext
    obtain ⟨value, -, rfl⟩ := List.mem_map.mp htext
    obtain ⟨c, cs, hstart, -⟩ := compact_starts (write value)
    simp [hstart]
  have hfuel := length_le_separated true hwritten
  unfold readArray
  rw [standard_write, toList_compact_arr, toList_compactItems, List.map_map, List.cons_append,
    List.append_assoc, skipSpace_cons (by decide)]
  refine readItems_written path rest [] h ?_
  simp only [List.length_map] at hfuel
  simp only [List.length_append]
  exact Nat.lt_succ_of_le (Nat.le_trans hfuel (Nat.le_add_right _ _))

/-! ## §4. Objects. -/

/-- A field as it is written. -/
def fieldChars (field : String × Json) : List Char :=
  (quote field.1).toList ++ ':' :: field.2.compact.toList

theorem toList_compactFields : ∀ fields : List (String × Json),
    (compactFields fields).toList = separated true (fields.map fieldChars)
  | [] => by simp [compactFields, separated]
  | [field] => by simp [compactFields, separated, fieldChars]
  | (name, value) :: next :: fields => by
      have ih := toList_compactFields (next :: fields)
      rw [compactFields]
      · simp only [String.toList_append, ih]
        simp [separated, fieldChars]
      · simp

/-- A key comes, past the comma if it is not the first. -/
theorem nextKey_quote (first : Bool) (name : String) (rest : List Char) :
    nextKey first ((if first then [] else [',']) ++ ((quote name).toList ++ rest))
      = .ok (some name, rest) := by
  have hkey : nextKey.key ((quote name).toList ++ rest) = .ok (some name, rest) := by
    rw [toList_quote, List.cons_append, List.append_assoc]
    show nextKey.key ('"' :: (name.toList.flatMap escapedChar ++ '"' :: rest)) = _
    rw [nextKey.key, scanString_escaped]
    simp
  cases first with
  | true =>
    rw [toList_quote] at hkey ⊢
    exact hkey
  | false =>
    rw [toList_quote] at hkey ⊢
    exact hkey

theorem nextKey_close (first : Bool) (rest : List Char) :
    nextKey first ('}' :: rest) = .ok (none, '}' :: rest) := rfl

/-- Fields with any keys are read one after the other into the catalog. -/
theorem readEntries_written {α : Type} {value : Reader α} {write : α → Json}
    (path : List Segment) (rest : List Char) :
    ∀ {entries : List (String × α)} {fuel : Nat} (first : Bool) (catalog : Catalog α),
    (∀ entry ∈ entries, Codec.standard.Reads value (write entry.2) entry.2) →
    entries.length < fuel →
    readEntries value path fuel first catalog
        (separated first (entries.map fun entry => fieldChars (entry.1, write entry.2))
          ++ '}' :: rest)
      = .ok (entries.foldl (fun c entry => c.put entry.1 entry.2) catalog, rest)
  | [], fuel + 1, first, catalog, _, _ => rfl
  | (name, v) :: entries, fuel + 1, first, catalog, h, hfuel => by
      obtain ⟨hvalue, hvalues⟩ := List.forall_mem_cons.mp h
      have ih := readEntries_written path rest false (catalog.put name v) hvalues
        (Nat.lt_of_succ_lt_succ hfuel)
      rw [List.map_cons, separated, fieldChars, readEntries, List.append_assoc, List.append_assoc,
        List.append_assoc, nextKey_quote]
      show (value _ ((Codec.standard.write (write v)).toList ++ _) >>= _) = _
      rw [hvalue]
      exact ih

/-- The fields of an object are no more than its characters. -/
theorem length_le_fields (fields : List (String × Json)) (rest : List Char) :
    fields.length < (separated true (fields.map fieldChars) ++ rest).length + 1 := by
  have hwritten : ∀ text ∈ fields.map fieldChars, text ≠ [] := by
    intro text htext
    obtain ⟨field, -, rfl⟩ := List.mem_map.mp htext
    simp [fieldChars]
  have hfields := length_le_separated true hwritten
  simp only [List.length_map] at hfields
  simp only [List.length_append]
  omega

/-- **Objects with any keys are read back if their values are.** -/
theorem reads_catalog {α : Type} {value : Reader α} {write : α → Json} {catalog : Catalog α}
    (h : ∀ entry ∈ catalog.entries, Codec.standard.Reads value (write entry.2) entry.2) :
    Codec.standard.Reads (readCatalog value)
      (.obj (catalog.entries.map fun entry => (entry.1, write entry.2))) catalog := by
  intro path rest
  have hput : catalog.entries.foldl (fun c entry => c.put entry.1 entry.2) .empty = catalog :=
    Catalog.eq_of_entries (Catalog.entries_ofList catalog.distinct)
  unfold readCatalog
  rw [standard_write, toList_compact_obj, toList_compactFields, List.map_map, List.cons_append,
    List.append_assoc, skipSpace_cons (by decide)]
  show readEntries value path _ true .empty _ = _
  refine (readEntries_written path rest true .empty h ?_).trans ?_
  · simpa [Function.comp_def] using length_le_fields
      (catalog.entries.map fun entry => (entry.1, write entry.2)) ('}' :: rest)
  · rw [hput]

/-! ## §5. Parts. -/

/-- The fields of a part are read one after the other. -/
theorem readFields_written {σ : Type} {p : Part σ} {s s' : σ} {fields : List (String × Json)}
    (h : Codec.standard.Fills p s fields s') {field : String} (hhead : p.fields.head? = some field)
    (hhas : p.has s' field = true) (path : List Segment) (rest : List Char) :
    ∀ {fuel : Nat} (first : Bool), fields.length < fuel →
      p.readFields path fuel first s (separated first (fields.map fieldChars) ++ '}' :: rest)
        = .ok (s', rest) := by
  induction h with
  | nil s =>
    intro fuel first hfuel
    obtain ⟨fuel, rfl⟩ : ∃ k, fuel = k + 1 := ⟨fuel - 1, by simp at hfuel; omega⟩
    show p.readFields path (fuel + 1) first s ('}' :: rest) = _
    rw [Part.readFields, nextKey_close]
    simp only [Outcome.ok_bind, hhead, hhas, if_true]
    rfl
  | @cons s s₁ s₂ name json fields hfield hnew hread _ ih =>
    intro fuel first hfuel
    obtain ⟨fuel, rfl⟩ : ∃ k, fuel = k + 1 := ⟨fuel - 1, by simp at hfuel; omega⟩
    rw [List.map_cons, separated, fieldChars, Part.readFields, List.append_assoc,
      List.append_assoc, List.append_assoc, nextKey_quote]
    simp only [Outcome.ok_bind, hfield, hnew, Bool.not_true, Bool.false_eq_true, if_false]
    show (p.read s name _ ((Codec.standard.write json).toList ++ _) >>= _) = _
    rw [hread]
    exact ih hhas false (Nat.lt_of_succ_lt_succ hfuel)

/-- **A part is read back if its fields are.** -/
theorem reads_part {σ : Type} {p : Part σ} {s : σ} {fields : List (String × Json)}
    (h : Codec.standard.Fills p p.start fields s) {field : String}
    (hhead : p.fields.head? = some field) (hhas : p.has s field = true) :
    Codec.standard.Reads p.reader (.obj fields) s := by
  intro path rest
  unfold Part.reader
  rw [standard_write, toList_compact_obj, toList_compactFields, List.cons_append, List.append_assoc,
    skipSpace_cons (by decide)]
  exact readFields_written h hhead hhas path rest true (length_le_fields fields ('}' :: rest))

/-- **The standard JSON library is lawful.** -/
theorem standard_lawful : Codec.standard.Lawful where
  string := reads_string
  array := reads_array
  catalog := reads_catalog
  part := fun h hhead hhas => reads_part h hhead hhas

/-! ## §6. Configurations. -/

section Lawful

variable {codec : Codec}

theorem Codec.Reads.map {α β : Type} {reader : Reader α} {json : Json} {value : α}
    (h : codec.Reads reader json value) (f : α → β) :
    codec.Reads (mapReader reader f) json (f value) := by
  intro path rest
  unfold mapReader
  rw [h path rest]
  rfl

theorem reads_struct (laws : codec.Lawful) (d : StructDef) :
    codec.Reads codec.readStruct (structJson d) d := by
  have hfills : codec.Fills codec.structPart codec.structPart.start [("type", .str d.typeExpr)]
      (some d.typeExpr) :=
    .cons (by simp [Codec.structPart]) rfl ((laws.string d.typeExpr).map some) (.nil _)
  unfold Codec.readStruct structJson
  exact (laws.part hfills rfl rfl).map _

theorem reads_function (laws : codec.Lawful) (d : FunctionDef) :
    codec.Reads codec.readFunction (functionJson d) d := by
  have htemplate : codec.Reads (codec.functionPart.read ⟨none, none⟩ "template") (.str d.template)
      ⟨some d.template, none⟩ := by
    simpa [Codec.functionPart] using
      (laws.string d.template).map fun v => Codec.FunctionDraft.mk (some v) none
  have hinputs : codec.Reads (codec.functionPart.read ⟨some d.template, none⟩ "inputs")
      (.arr (d.inputs.map .str)) ⟨some d.template, some d.inputs⟩ := by
    have harray : codec.Reads (codec.array codec.string) (.arr (d.inputs.map .str)) d.inputs :=
      laws.array fun input _ => laws.string input
    simpa [Codec.functionPart] using
      harray.map fun v => Codec.FunctionDraft.mk (some d.template) (some v)
  have hfills : codec.Fills codec.functionPart codec.functionPart.start
      [("template", .str d.template), ("inputs", .arr (d.inputs.map .str))]
      ⟨some d.template, some d.inputs⟩ := by
    refine .cons ?_ rfl htemplate (.cons ?_ ?_ hinputs (.nil _)) <;> simp [Codec.functionPart]
  unfold Codec.readFunction functionJson
  exact (laws.part hfills rfl (by simp [Codec.functionPart])).map _

/-- **A configuration is read back from its written form.** -/
theorem reads_config (laws : codec.Lawful) (c : Config) :
    codec.Reads codec.readConfig c.toJson c := by
  have hcontract : codec.Reads (codec.configPart.read ⟨none, none, none⟩ "contract_name")
      (.str c.contractName) ⟨some c.contractName, none, none⟩ := by
    simpa [Codec.configPart] using
      (laws.string c.contractName).map fun v => Codec.Draft.mk (some v) none none
  have hstructs : codec.Reads
      (codec.configPart.read ⟨some c.contractName, none, none⟩ "structs")
      (.obj (c.structs.entries.map fun entry => (entry.1, structJson entry.2)))
      ⟨some c.contractName, some c.structs, none⟩ := by
    have hcatalog := laws.catalog fun entry (_ : entry ∈ c.structs.entries) =>
      reads_struct laws entry.2
    simpa [Codec.configPart] using
      hcatalog.map fun v => Codec.Draft.mk (some c.contractName) (some v) none
  have hfunctions : codec.Reads
      (codec.configPart.read ⟨some c.contractName, some c.structs, none⟩ "functions")
      (.obj (c.functions.entries.map fun entry => (entry.1, functionJson entry.2)))
      ⟨some c.contractName, some c.structs, some c.functions⟩ := by
    have hcatalog := laws.catalog fun entry (_ : entry ∈ c.functions.entries) =>
      reads_function laws entry.2
    simpa [Codec.configPart] using
      hcatalog.map fun v => Codec.Draft.mk (some c.contractName) (some c.structs) (some v)
  -- the three fields in the order they are written in
  have hfills : codec.Fills codec.configPart codec.configPart.start
      [("contract_name", .str c.contractName),
        ("structs", .obj (c.structs.entries.map fun entry => (entry.1, structJson entry.2))),
        ("functions", .obj (c.functions.entries.map fun entry => (entry.1, functionJson entry.2)))]
      ⟨some c.contractName, some c.structs, some c.functions⟩ := by
    refine .cons ?_ rfl hcontract (.cons ?_ ?_ hstructs (.cons ?_ ?_ hfunctions (.nil _)))
      <;> simp [Codec.configPart]
  unfold Codec.readConfig toJson
  exact (laws.part hfills rfl (by simp [Codec.configPart])).map _

end Lawful

/-- A configuration is valid if its contract and functions have identifiers for
names. -/
theorem invalid?_eq_none {c : Config} (hcontract : Text.isIdentifier c.contractName = true)
    (hfunctions : ∀ name ∈ c.functions.names, Text.isIdentifier name = true) :
    c.invalid? = none := by
  have hfind : (c.functions.names.find? fun name => !Text.isIdentifier name) = none := by
    rw [List.find?_eq_none]
    intro name hname
    simp [hfunctions name hname]
  unfold invalid?
  rw [if_neg (by simp [hcontract]), hfind]
  rfl

/-- **Whatever follows the written form of a configuration, that configuration
is read,** with any lawful JSON library: reading stops right behind it, with
every name, expression, template and input as it was and in its order. -/
theorem load_written {codec : Codec} (laws : codec.Lawful) (c : Config)
    (hcontract : Text.isIdentifier c.contractName = true)
    (hfunctions : ∀ name ∈ c.functions.names, Text.isIdentifier name = true) (t : String) :
    codec.readConfig [] (codec.write c.toJson ++ t).toList = .ok (c, t.toList)
      ∧ codec.load (codec.write c.toJson ++ t) = .ok c := by
  have hread : codec.readConfig [] (codec.write c.toJson ++ t).toList = .ok (c, t.toList) := by
    rw [String.toList_append]
    exact reads_config laws c [] t.toList
  refine ⟨hread, ?_⟩
  unfold Codec.load
  rw [hread]
  simp only [invalid?_eq_none hcontract hfunctions]

/-- A configuration with all sorts of characters: quotes, backslashes, control
characters and text beyond ASCII. -/
def knottyConfig : Config :=
  { contractName := "Knots"
    structs := ⟨[("a \"b\" \\", ⟨"record(\x01\x1f é x)"⟩), ("", ⟨""⟩)], by decide⟩
    functions := ⟨[("tie", ⟨"\x7b\n\t\x08\x7f", ["a \"b\" \\", "", "😀"]⟩), ("_", ⟨"", []⟩)],
      by decide⟩ }

/-- The standard library reads it back although a second value follows. -/
theorem load_written_knotty :
    Codec.standard.Lawful
      ∧ Text.isIdentifier knottyConfig.contractName = true
      ∧ (∀ name ∈ knottyConfig.functions.names, Text.isIdentifier name = true)
      ∧ ofText (knottyConfig.toJson.compact ++ ", \x7b\"contract_name\": 3\x7d")
          = .ok knottyConfig :=
  ⟨standard_lawful, by decide, by decide,
    (load_written standard_lawful knottyConfig (by decide) (by decide) _).2⟩

end Stencil.Config
