/-
  Stencil.Proofs.CommandLine.Outputs
  ──────────────────────────────────
  WHERE THE OUTPUTS OF SEVERAL INPUTS GO.

  With several inputs every output goes into one directory, under a name that
  is made of its input's.  The extension replaces what follows the last dot
  of the input's stem, which may have a dot of its own: then the output has a
  shorter name than its input's stem, and inputs whose stems differ only
  behind their last dots share one output.

    • `outputTarget?_eq` — the name of an output,
    • `delivered` — the outputs of a run, in their order,
    • `processAll_settled` — what one input after the other leaves behind,
    • `run_outputs` — what a run with several inputs has written at its end.
-/
import Stencil.CommandLine
import Stencil.Proofs.Files.Writing

namespace Stencil

/-- Formatting leaves the files as they are. -/
def Formatter.LeavesFiles (tools : Tools) : Prop :=
  ∀ source tree, (format tools program source tree).2 = tree

namespace Files

/-- Can a file be written at the end of a path, once the directories above it
are created? -/
def Tree.canWrite (tree : Tree) (path : String) : Bool :=
  match tree.createDirectories ((parent? path).getD "") with
  | .error _ => false
  | .ok tree =>
      match tree.target path with
      | .ok (.file _) => true
      | _ => false

theorem Tree.canWrite_iff {tree : Tree} {path : String} :
    tree.canWrite path = true ↔
      ∃ above place, tree.createDirectories ((parent? path).getD "") = .ok above ∧
        above.target path = .ok (.file place) := by
  unfold canWrite
  split
  · simp_all
  · split <;> simp_all

end Files

namespace CommandLine

open Files (Tree IsName bareName stem? join)

/-! ## §1. Names of outputs. -/

/-- The name of an input's output among several: the stem, without a last dot
of its own and what follows it, and the extension. -/
def outputName (stem extension : String) : String :=
  bareName stem ++ "." ++ extension

section Names

variable {input stem extension : String}

theorem isName_outputName (h : IsName stem) (hext : '/' ∉ extension.toList) :
    IsName (outputName stem extension) :=
  (h.bareName.append (by decide)).append hext

theorem outputName_ne_dots (h : IsName stem) (hext : extension ≠ "") :
    outputName stem extension ≠ "." ∧ outputName stem extension ≠ ".." := by
  have hbare := List.length_pos_iff.mpr h.bareName.nonempty
  have hext' : 0 < extension.toList.length :=
    List.length_pos_iff.mpr fun he => hext (String.toList_inj.mp he)
  have hlength : 2 < (outputName stem extension).toList.length := by
    simp only [outputName, String.toList_append, List.length_append]
    have : ".".toList.length = 1 := rfl
    omega
  constructor <;> intro he <;> rw [he] at hlength <;> revert hlength <;> decide

theorem outputName_inj {other : String} :
    outputName stem extension = outputName other extension ↔ bareName stem = bareName other := by
  simp [outputName, ← String.toList_inj]

/-- **An output is named after its input's stem, cut at its last dot.** -/
theorem outputTarget?_eq (hstem : stem? input = some stem) (hbare : bareName stem ≠ ".")
    (hext : '/' ∉ extension.toList) (dir : String) :
    outputTarget? dir true input extension = some (join dir (outputName stem extension)) := by
  rw [outputTarget?, if_pos rfl, hstem, Option.map_some,
    (Files.isName_of_stem? hstem).withExtension_join hbare dir hext, outputName]

end Names

/-! ## §2. Outputs of a run. -/

/-- What an input comes to: nothing if it does not compile, or if making the
product of it fails. -/
def Product.content? (p : Product) (tree : Tree) (input : String)
    (compiled : Except String Library) : Option String :=
  compiled.toOption.bind fun library => (p.text tree input library).1.toOption

/-- The session that the inputs behind one input find. -/
def Session.turn (s : Session) (product : Product) (out : Option String) (several : Bool)
    (input : String) (compiled : Except String Library) : Session :=
  match s.process product out several input compiled with
  | (s, none) => s
  | (s, some message) => { s with errors := s.errors ++ "✗ " ++ input ++ ": " ++ message ++ "\n" }

/-- The inputs that come to something at their turn, each with what it comes to. -/
def Session.delivered (s : Session) (product : Product) (out : Option String) (several : Bool) :
    List (String × Except String Library) → List (String × String)
  | [] => []
  | (input, compiled) :: rest =>
      ((product.content? s.tree input compiled).map (input, ·)).toList
        ++ (s.turn product out several input compiled).delivered product out several rest

/-- What a request makes of libraries. -/
def Request.product (tools : Tools) : Request → Product
  | .solidity settings format => solidityProduct tools (format || settings.out.isSome)
  | .ops _ => opsProduct

/-- The ending of the files a request makes. -/
def Request.extension : Request → String
  | .solidity .. => "sol"
  | .ops _ => "json"

/-- Does a request use the formatter? -/
def Request.formats : Request → Bool
  | .solidity settings format => format || settings.out.isSome
  | .ops _ => false

/-- The inputs of a run, compiled. -/
def compileAll (tree : Tree) (paths : List String) : List (String × Except String Library) :=
  paths.map fun path => (path, compileFile tree path)

/-- The inputs of a run that compile and are formatted, with their outputs, in
their order. -/
def Request.delivered (tools : Tools) (tree : Tree) (r : Request) (paths : List String) :
    List (String × String) :=
  Session.delivered ⟨"", "", tree⟩ (r.product tools) r.settings.out (decide (1 < paths.length))
    (compileAll tree paths)

/-- Making a product leaves the files as they are. -/
def Product.LeavesFiles (p : Product) : Prop :=
  ∀ tree input library, (p.text tree input library).2 = tree

theorem Request.product_leavesFiles {tools : Tools} {r : Request}
    (h : r.formats = true → Formatter.LeavesFiles tools) : (r.product tools).LeavesFiles := by
  intro tree input library
  cases r with
  | ops settings => rfl
  | solidity settings format =>
    cases hformat : format || settings.out.isSome with
    | false => simp [product, solidityProduct, hformat]
    | true => simpa [product, solidityProduct, hformat] using h hformat _ tree

@[simp] theorem Request.product_extension (tools : Tools) (r : Request) :
    (r.product tools).extension = r.extension := by
  cases r <;> rfl

theorem Request.extension_plain (r : Request) : r.extension ≠ "" ∧ '/' ∉ r.extension.toList := by
  cases r <;> simp [extension]

theorem Request.run_eq_produce (tools : Tools) (tree : Tree) {r : Request}
    (h : r.settings.noOp = false) :
    r.run tools tree = produce tree r.settings (r.product tools) := by
  cases r with
  | solidity settings format => exact if_neg (by simpa using h)
  | ops settings => exact if_neg (by simpa using h)

theorem Session.processAll_cons (s : Session) (product : Product) (out : Option String)
    (several : Bool) (input : String) (compiled : Except String Library)
    (rest : List (String × Except String Library)) :
    (s.processAll product out several ((input, compiled) :: rest)).1
      = ((s.turn product out several input compiled).processAll product out several rest).1 := by
  rcases hturn : s.process product out several input compiled with ⟨t, outcome⟩
  cases outcome <;> simp [processAll, turn, hturn]

/-! ## §3. One input after the other. -/

/-- The directory of the outputs is there, and holds what was put into it: files by their
names, on top of what was in it first. -/
structure Settled (dir : String) (start : Tree) (reached : List String)
    (done : List (String × String)) (tree : Tree) : Prop where
  /-- Creating it leads to the files put so far. -/
  ready : tree.createDirectories (Files.holder dir) = .ok (start.fill reached done)
  /-- After the first file there is nothing to create. -/
  settled : done ≠ [] → tree = start.fill reached done

/-- A name can be written in the directory. -/
structure Fits (dir : String) (start : Tree) (reached : List String) (name : String) : Prop where
  /-- It is a name. -/
  isName : IsName name
  /-- It does not stay in the directory itself. -/
  not_dot : name ≠ "."
  /-- It is the name of no device. -/
  dotted : '.' ∈ name.toList
  /-- There is a file behind it, or nothing. -/
  target : start.target (join dir name) = .ok (.file (reached ++ [name]))

variable {dir name : String} {start tree : Tree} {reached : List String}
  {done : List (String × String)}

theorem Fits.target_fill (h : Fits dir start reached name) (done : List (String × String)) :
    (start.fill reached done).target (join dir name) = .ok (.file (reached ++ [name])) := by
  obtain ⟨-, -, -, -, hdirectory, -⟩ := Tree.target_eq_file.mp h.target
  refine Tree.target_mono (Tree.grows_fill _ _ _) h.target ?_
  rw [Tree.hasDirectory_fill _ _ (by simp)]
  exact hdirectory

/-- **Writing a file adds it to those that were put.** -/
theorem writeFile_settled {s : Session} (h : Settled dir start reached done s.tree)
    (hfits : Fits dir start reached name) (content : String) :
    ∃ t, s.writeFile (join dir name) content = (t, none) ∧
      Settled dir start reached (done ++ [(name, content)]) t.tree := by
  have hput : (start.fill reached done).put (reached ++ [name]) content
      = start.fill reached (done ++ [(name, content)]) := (Tree.fill_concat ..).symm
  have hready := Tree.createDirectories_again h.ready (Tree.grows_put _ (reached ++ [name]) content)
  rw [hput] at hready
  refine ⟨{ s with
      tree := start.fill reached (done ++ [(name, content)])
      errors := s.errors ++ "wrote " ++ join dir name ++ "\n" }, ?_, hready, fun _ => rfl⟩
  simp only [Session.writeFile, hfits.isName.parent?_join hfits.not_dot, Option.getD_some, h.ready,
    hfits.target_fill, hput]

/-- What a delivered input adds to the directory. -/
def entryOf (extension : String) (delivery : String × String) : String × String :=
  (outputName ((stem? delivery.1).getD "") extension, delivery.2)

/-- There is a place for an input's output. -/
def HasPlace (dir extension : String) (start : Tree) (reached : List String) (input : String) :
    Prop :=
  ∃ stem, stem? input = some stem ∧ bareName stem ≠ "." ∧
    Fits dir start reached (outputName stem extension)

variable {product : Product} {s : Session}

/-- **One input adds its output to the directory, or nothing.** -/
theorem turn_settled (hproduct : product.LeavesFiles) (hext : '/' ∉ product.extension.toList)
    (h : Settled dir start reached done s.tree) (input : String) (compiled : Except String Library)
    (hplace : product.content? s.tree input compiled ≠ none →
      HasPlace dir product.extension start reached input) :
    Settled dir start reached
      (done ++ ((product.content? s.tree input compiled).map (input, ·)).toList.map
        (entryOf product.extension))
      (s.turn product (some dir) true input compiled).tree := by
  cases compiled with
  | error message =>
    simpa [Session.turn, Session.process, Product.content?, Except.toOption] using h
  | ok library =>
    -- whether or not the product can be made, the files are as they were
    have hsame := hproduct s.tree input library
    rcases htext : product.text s.tree input library with ⟨result, after⟩
    obtain rfl : after = s.tree := by simpa [htext] using hsame
    cases result with
    | error message =>
      simpa [Session.turn, Session.process, Product.content?, htext, Except.toOption] using h
    | ok content =>
      have hcontent : product.content? s.tree input (.ok library) = some content := by
        simp [Product.content?, htext, Except.toOption]
      obtain ⟨stem, hstem, hbare, hfits⟩ := hplace (by simp [hcontent])
      obtain ⟨t, hwrite, ht⟩ := writeFile_settled h hfits content
      have hprocess : s.process product (some dir) true input (.ok library) = (t, none) := by
        simp only [Session.process, htext, Session.give, outputTarget?_eq hstem hbare hext, hwrite]
      simpa [Session.turn, hprocess, hcontent, entryOf, hstem] using ht

/-- **A run adds the outputs that are delivered.** -/
theorem processAll_settled (hproduct : product.LeavesFiles)
    (hext : '/' ∉ product.extension.toList) (inputs : List (String × Except String Library))
    (h : Settled dir start reached done s.tree)
    (hplaces : ∀ delivery ∈ s.delivered product (some dir) true inputs,
      HasPlace dir product.extension start reached delivery.1) :
    Settled dir start reached
      (done ++ (s.delivered product (some dir) true inputs).map (entryOf product.extension))
      (s.processAll product (some dir) true inputs).1.tree := by
  -- each input finds the session its predecessors left, and more files that were put
  induction inputs generalizing s done with
  | nil => simpa [Session.delivered, Session.processAll] using h
  | cons first rest ih =>
    obtain ⟨input, compiled⟩ := first
    rw [Session.delivered, List.forall_mem_append] at hplaces
    obtain ⟨hfirst, hrest⟩ := hplaces
    have hturn := turn_settled hproduct hext h input compiled (by
      intro hcontent
      obtain ⟨content, hcontent⟩ := Option.ne_none_iff_exists'.mp hcontent
      exact hfirst (input, content) (by simp [hcontent]))
    rw [Session.processAll_cons, Session.delivered, List.map_append, ← List.append_assoc]
    exact ih hturn hrest

/-! ## §4. Runs with several inputs. -/

theorem produce_tree {settings : Settings} {paths : List String}
    (hpaths : allPaths tree settings.inputs = .ok paths) (product : Product) :
    (produce tree settings product).tree
      = (Session.processAll ⟨"", "", tree⟩ product settings.out (decide (1 < paths.length))
          (compileAll tree paths)).1.tree := by
  simp only [produce, hpaths]
  split <;> rfl

/-- What can be written into the directory has a place there, once that is created. -/
theorem exists_hasPlace {extension : String} (hext : extension ≠ "")
    (hslash : '/' ∉ extension.toList) {deliveries : List (String × String)}
    (hne : deliveries ≠ [])
    (h : ∀ delivery ∈ deliveries, ∃ stem, stem? delivery.1 = some stem ∧ bareName stem ≠ "." ∧
      tree.canWrite (join dir (outputName stem extension)) = true) :
    ∃ above reached, tree.createDirectories (Files.holder dir) = .ok above ∧
      ∀ delivery ∈ deliveries, HasPlace dir extension above reached delivery.1 := by
  have hplace : ∀ delivery ∈ deliveries, ∃ above reached,
      tree.createDirectories (Files.holder dir) = .ok above ∧ above.directory dir = .ok reached ∧
        HasPlace dir extension above reached delivery.1 := by
    intro delivery hmem
    obtain ⟨stem, hstem, hbare, hwrite⟩ := h delivery hmem
    have hname := isName_outputName (Files.isName_of_stem? hstem) hslash
    obtain ⟨hdot, hdots⟩ := outputName_ne_dots (Files.isName_of_stem? hstem) hext
    obtain ⟨above, place, habove, htarget⟩ := Tree.canWrite_iff.mp hwrite
    rw [hname.parent?_join hdot, Option.getD_some] at habove
    obtain ⟨reached, hreached, rfl⟩ := Tree.target_join hname hdot hdots htarget
    exact ⟨above, reached, habove, hreached, stem, hstem, hbare,
      hname, hdot, by simp [outputName], htarget⟩
  -- the directory is created, and found, in the same way for all of them
  obtain ⟨first, hfirst⟩ := List.exists_mem_of_ne_nil _ hne
  obtain ⟨above, reached, habove, hreached, -⟩ := hplace first hfirst
  refine ⟨above, reached, habove, fun delivery hmem => ?_⟩
  obtain ⟨above', reached', habove', hreached', hplace'⟩ := hplace delivery hmem
  obtain rfl : above = above' := Except.ok.inj (habove.symm.trans habove')
  obtain rfl : reached = reached' := Except.ok.inj (hreached.symm.trans hreached')
  exact hplace'

/-- The files of outputs that are in the directory can be read, unless a later one has their
name. -/
theorem read_of_settled {extension : String} {before after : List (String × String)}
    {input content stem : String}
    (h : Settled dir start reached
      ((before ++ (input, content) :: after).map (entryOf extension)) tree)
    (hplaces : ∀ delivery ∈ before ++ (input, content) :: after,
      HasPlace dir extension start reached delivery.1)
    (hstem : stem? input = some stem)
    (hlater : ∀ later ∈ after, (stem? later.1).map bareName ≠ some (bareName stem)) :
    tree.read (join dir (outputName stem extension)) = .ok content := by
  have hentry : entryOf extension (input, content) = (outputName stem extension, content) := by
    simp [entryOf, hstem]
  have htree := h.settled (by simp)
  rw [List.map_append, List.map_cons, hentry] at htree
  obtain ⟨stem', hstem', -, hfits⟩ := hplaces (input, content) (by simp)
  obtain rfl : stem = stem' := Option.some.inj (hstem.symm.trans hstem')
  rw [htree]
  -- the file is the last of its name, since names agree only if bare stems do
  refine Tree.read_of_target (hfits.target_fill _) (Tree.file?_fill ?_ ?_ _)
  · intro entry hmem
    rw [← hentry, ← List.map_cons, ← List.map_append] at hmem
    obtain ⟨delivery, hdelivery, rfl⟩ := List.mem_map.mp hmem
    obtain ⟨other, hother, -, hfits⟩ := hplaces delivery hdelivery
    simpa [entryOf, hother] using Tree.isDevice_append hfits.dotted reached
  · intro hmem
    simp only [List.map_map, List.mem_map, Function.comp_apply] at hmem
    obtain ⟨later, hmem, hsame⟩ := hmem
    obtain ⟨other, hother, -⟩ := hplaces later (by simp [hmem])
    refine hlater later hmem ?_
    rw [entryOf, hother, Option.getD_some, outputName_inj] at hsame
    rw [hother, Option.map_some, hsame]

/-- **The outputs of a run with several inputs.**  Each goes into the directory, under its input's
stem cut at its last dot: the whole stem only if that has no such dot, and the same name for two
inputs whose stems agree up to there.  At the end of a run in which every output can be written,
an output is in its file unless a later one has the same name. -/
theorem Request.run_outputs (tools : Tools) (tree : Tree) (r : Request) (dir : String)
    (paths : List String) (hrun : r.settings.noOp = false) (hout : r.settings.out = some dir)
    (hpaths : allPaths tree r.settings.inputs = .ok paths) (hseveral : 1 < paths.length)
    (hformat : r.formats = true → Formatter.LeavesFiles tools)
    (hwritable : ∀ delivery ∈ r.delivered tools tree paths, ∃ stem, stem? delivery.1 = some stem ∧
      bareName stem ≠ "." ∧ tree.canWrite (join dir (outputName stem r.extension)) = true) :
    (∀ input stem, stem? input = some stem → bareName stem ≠ "." →
      outputTarget? dir true input r.extension = some (join dir (outputName stem r.extension)) ∧
      (outputTarget? dir true input r.extension = some (join dir (stem ++ "." ++ r.extension)) ↔
        bareName stem = stem)) ∧
    (∀ input stem other otherStem, stem? input = some stem → bareName stem ≠ "." →
      stem? other = some otherStem → bareName otherStem ≠ "." →
      (outputTarget? dir true input r.extension = outputTarget? dir true other r.extension ↔
        bareName stem = bareName otherStem)) ∧
    ∀ before input content after stem,
      r.delivered tools tree paths = before ++ (input, content) :: after →
      stem? input = some stem →
      (∀ later ∈ after, (stem? later.1).map bareName ≠ some (bareName stem)) →
      (r.run tools tree).tree.read (join dir (outputName stem r.extension)) = .ok content := by
  obtain ⟨hext, hslash⟩ := r.extension_plain
  refine ⟨?named, ?shared, ?kept⟩
  case named =>
    intro input stem hstem hbare
    have hname := Files.isName_of_stem? hstem
    refine ⟨outputTarget?_eq hstem hbare hslash dir, ?_⟩
    rw [outputTarget?_eq hstem hbare hslash, Option.some.injEq,
      (isName_outputName hname hslash).join_inj ((hname.append (by decide)).append hslash)]
    simp [outputName, ← String.toList_inj]
  case shared =>
    intro input stem other otherStem hstem hbare hotherStem hotherBare
    rw [outputTarget?_eq hstem hbare hslash, outputTarget?_eq hotherStem hotherBare hslash,
      Option.some.injEq, (isName_outputName (Files.isName_of_stem? hstem) hslash).join_inj
        (isName_outputName (Files.isName_of_stem? hotherStem) hslash), outputName_inj]
  case kept =>
    intro before input content after stem hdelivered hstem hlater
    obtain ⟨above, reached, habove, hplaces⟩ :=
      exists_hasPlace hext hslash (by simp [hdelivered]) hwritable
    have hturns : r.delivered tools tree paths
        = Session.delivered ⟨"", "", tree⟩ (r.product tools) (some dir) true
            (compileAll tree paths) := by
      rw [Request.delivered, hout, decide_eq_true hseveral]
    have htree : (r.run tools tree).tree
        = (Session.processAll ⟨"", "", tree⟩ (r.product tools) (some dir) true
            (compileAll tree paths)).1.tree := by
      rw [r.run_eq_produce tools tree hrun, produce_tree hpaths, hout, decide_eq_true hseveral]
    have hstart : Settled dir above reached [] (Session.mk "" "" tree).tree :=
      ⟨habove, fun hne => absurd rfl hne⟩
    have hsettled := processAll_settled (r.product_leavesFiles hformat)
      (by rwa [r.product_extension]) (compileAll tree paths) hstart
      (by rwa [← hturns, r.product_extension])
    rw [List.nil_append, r.product_extension, ← hturns, ← htree, hdelivered] at hsettled
    exact read_of_settled hsettled (hdelivered ▸ hplaces) hstem hlater

/-- A configuration with nothing but a name. -/
def plainConfig (name : String) : String :=
  "\x7b\"contract_name\":\"" ++ name ++ "\",\"structs\":\x7b\x7d,\"functions\":\x7b\x7d\x7d"

/-- A formatter that changes nothing. -/
def passThrough : Tools := fun name =>
  if name = Formatter.program then some fun _ source tree => ⟨.exited 0, source, [], tree⟩ else none

theorem passThrough_leavesFiles : Formatter.LeavesFiles passThrough := fun _ _ => rfl

/-- Two configurations, the first with a dot in its stem. -/
def dotted : Tree := Tree.ofList [("a.x.json", plainConfig "A"), ("b.json", plainConfig "B")]

/-- Both outputs are in their files, though a third input is not there. -/
theorem run_outputs_dotted :
    let r : Request := .solidity ⟨["a.x.json", "b.json", "c.json"], some "out", false⟩ false
    r.delivered passThrough dotted ["a.x.json", "b.json", "c.json"]
        = [("a.x.json", Solidity.render ⟨"A", [], []⟩), ("b.json", Solidity.render ⟨"B", [], []⟩)] ∧
      (r.run passThrough dotted).tree.read "out/a.sol" = .ok (Solidity.render ⟨"A", [], []⟩) ∧
      (r.run passThrough dotted).tree.read "out/b.sol" = .ok (Solidity.render ⟨"B", [], []⟩) := by
  intro r
  have hdelivered : r.delivered passThrough dotted ["a.x.json", "b.json", "c.json"]
      = [("a.x.json", Solidity.render ⟨"A", [], []⟩), ("b.json", Solidity.render ⟨"B", [], []⟩)] := by
    decide +kernel
  have hwritable : ∀ delivery ∈ r.delivered passThrough dotted ["a.x.json", "b.json", "c.json"],
      ∃ stem, stem? delivery.1 = some stem ∧ bareName stem ≠ "." ∧
        dotted.canWrite (join "out" (outputName stem r.extension)) = true := by
    rw [hdelivered, List.forall_mem_cons, List.forall_mem_singleton]
    exact ⟨⟨"a.x", by decide, by decide, by decide +kernel⟩,
      ⟨"b", by decide, by decide, by decide +kernel⟩⟩
  obtain ⟨-, -, hkept⟩ := Request.run_outputs passThrough dotted r "out"
    ["a.x.json", "b.json", "c.json"] rfl rfl (by decide +kernel) (by decide)
    (fun _ => passThrough_leavesFiles) hwritable
  -- the second output comes later, under another name
  have hfirst := hkept [] "a.x.json" _ [_] "a.x" hdelivered (by decide) (by decide)
  have hsecond := hkept [_] "b.json" _ [] "b" hdelivered (by decide) (by decide)
  rw [show join "out" (outputName "a.x" r.extension) = "out/a.sol" by decide] at hfirst
  rw [show join "out" (outputName "b" r.extension) = "out/b.sol" by decide] at hsecond
  exact ⟨hdelivered, hfirst, hsecond⟩

/-- Two inputs whose stems differ only behind their last dots. -/
def twoDotted : Tree :=
  Tree.ofList [("a.x.json", plainConfig "A"), ("a.y.json", plainConfig "B")]

/-- The operations of a library with nothing but a name. -/
def plainOps (name : String) : String :=
  "\x7b\n  \"contract_name\": \"" ++ name ++ "\",\n  \"structs\": [],\n  \"functions\": []\n\x7d"

/-- **Inputs with different stems can share one output.**  Both compile and the run succeeds, but
neither stem names a file, and what was written for the first input is gone. -/
theorem run_overwrites_output :
    let outcome :=
      Request.run passThrough twoDotted (.ops ⟨["a.x.json", "a.y.json"], some "out", false⟩)
    stem? "a.x.json" = some "a.x" ∧ stem? "a.y.json" = some "a.y" ∧
      compileFile twoDotted "a.x.json" = .ok ⟨"A", [], []⟩ ∧
      compileFile twoDotted "a.y.json" = .ok ⟨"B", [], []⟩ ∧
      outcome.code = 0 ∧
      outcome.tree.files
        = twoDotted.files ++ [(Files.workplace ++ ["out", "a.json"], plainOps "B")] := by
  decide +kernel

end CommandLine

end Stencil
