import Minikura.Patcher.Frame
import Minikura.Patcher.Throws

/-!
# The patcher

`main` goes over the `PATCH_YAML_CONFIG_` variables in the order of the map that the
environment is. Only the update of a file is guarded: what is thrown before ends the program,
and with it the patching of every file named later. What is logged is left out, and with it
`getCurrentTime`, which throws at a whole minute: the text of the time then has no seconds.

## Main definitions

* `FileSystem`, `processVariable`, `main` — the files and what is done to them.
* `Throwing` — the values that end the program.

## Main results

* `processVariable_eq_none_iff`, `file_processVariable` — one variable.
* `processesAll_iff` — when all variables are processed, each file as if on its own.
-/

namespace Minikura.Patcher

/-! ## Files -/

structure File where
  /-- The mapping its text loads to, if it loads to one. -/
  document : Option Entries
  writable : Bool

structure FileSystem (Id : Type) where
  /-- The file of a path, if it exists. -/
  resolve : Text → Option Id
  file : Id → File

/-- The `try` block: whatever it throws is caught, and the file stays as it is. -/
def updateFile (file : File) (replacements : List (Text × Replacement)) : File :=
  match file.document with
  | some yamlData =>
    if file.writable then { file with document := some (updateYaml yamlData replacements) }
    else file
  | none => file

/-- The replacements of the lines after the first, if nothing is thrown. -/
def readReplacements (lines : List Text) : Option (List (Text × Replacement)) := do
  let edits ← (lines.drop 1).mapM parseLine
  gather [] edits.reduceOption

section

variable {Id : Type} [DecidableEq Id]

/-- The body of the loop; without a result, it has thrown. -/
def processVariable (fs : FileSystem Id) (value : Text) : Option (FileSystem Id) :=
  let lines := splitWithEscapedPipe value
  if lines.length < 2 then some fs
  else match fs.resolve (trim (lines.headD [])) with
    | none => some fs
    | some yamlFile =>
      (readReplacements lines).map fun replacements =>
        { fs with
          file := Function.update fs.file yamlFile (updateFile (fs.file yamlFile) replacements) }

/-- The files after the loop, and whether it came to its end. -/
def processVariables (fs : FileSystem Id) : List Text → FileSystem Id × Bool
  | [] => (fs, true)
  | value :: values =>
    match processVariable fs value with
    | none => (fs, false)
    | some fs' => processVariables fs' values

def isPatchVariable (name : Text) : Bool := "PATCH_YAML_CONFIG_".toList.isPrefixOf name

def main (fs : FileSystem Id) (envVars : List (Text × Text)) : FileSystem Id × Bool :=
  processVariables fs ((envVars.filter (isPatchVariable ·.1)).map (·.2))

end

/-- On a document that can be written, the body of the loop does what it does to the document. -/
theorem updateFile_of_process {value : Text} {yamlData yamlData' : Entries}
    (h : process value yamlData = .written yamlData') :
    ∃ replacements, readReplacements (splitWithEscapedPipe value) = some replacements ∧
      updateFile ⟨some yamlData, true⟩ replacements = ⟨some yamlData', true⟩ := by
  unfold process at h
  dsimp only at h
  split_ifs at h with hlength
  split at h
  · cases h
  · next edits hedits =>
    split at h
    · cases h
    · next replacements hgather =>
      cases h
      refine ⟨replacements, ?_, rfl⟩
      rw [readReplacements, hedits]
      exact hgather

/-! ## Values that end the program -/

/-- The text after the first equals sign, without blanks around it. -/
def valueText (line : Text) : Text := trim ((line.dropWhile (· ≠ '=')).drop 1)

/-- A line has a value with a lone quotation mark, or the edits of the lines clash. -/
def Throwing (value : Text) : Prop :=
  (∃ line ∈ (splitWithEscapedPipe value).drop 1, '=' ∈ line ∧ LoneQuote (valueText line)) ∨
  ∃ edits, ((splitWithEscapedPipe value).drop 1).mapM parseLine = some edits ∧
    Clashing edits.reduceOption

theorem parseLine_eq_none_iff {line : Text} :
    parseLine line = none ↔ '=' ∈ line ∧ LoneQuote (valueText line) := by
  rw [parseLine, ← parseValue_eq_none_iff, valueText]
  by_cases h : '=' ∈ line
  · rw [if_neg (by simpa using h), and_iff_right h]
    exact Option.map_eq_none_iff
  · simp [h]

theorem readReplacements_eq_none_iff {value : Text} :
    readReplacements (splitWithEscapedPipe value) = none ↔ Throwing value := by
  rw [readReplacements, Throwing]
  cases hparse : ((splitWithEscapedPipe value).drop 1).mapM parseLine with
  | none =>
    obtain ⟨line, hline, hnone⟩ := mapM_eq_none_iff.mp hparse
    exact iff_of_true rfl (.inl ⟨line, hline, parseLine_eq_none_iff.mp hnone⟩)
  | some edits =>
    have hlines : ¬∃ line ∈ (splitWithEscapedPipe value).drop 1,
        '=' ∈ line ∧ LoneQuote (valueText line) := by
      rintro ⟨line, hline, hthrows⟩
      have hnone := mapM_eq_none_iff.mpr ⟨line, hline, parseLine_eq_none_iff.mpr hthrows⟩
      cases hnone.symm.trans hparse
    simp only [hlines, false_or, Option.some.injEq, exists_eq_left', ← gather_eq_none_iff]
    rfl

/-! ## One variable -/

/-- The file a variable with lines names, if it exists. -/
def FileSystem.named {Id : Type} (fs : FileSystem Id) (value : Text) : Option Id :=
  let lines := splitWithEscapedPipe value
  if lines.length < 2 then none else fs.resolve (trim (lines.headD []))

theorem named_congr {Id : Type} {fs fs' : FileSystem Id} (h : fs'.resolve = fs.resolve)
    (value : Text) : fs'.named value = fs.named value := by
  rw [FileSystem.named, FileSystem.named, h]

section

variable {Id : Type} [DecidableEq Id] {fs fs' : FileSystem Id} {value : Text}
  {values : List Text} {id : Id}

/-- What a variable that does not throw does to the file it names. -/
def patchFile (file : File) (value : Text) : File :=
  match readReplacements (splitWithEscapedPipe value) with
  | none => file
  | some replacements => updateFile file replacements

theorem processVariable_eq_none_iff :
    processVariable fs value = none ↔ (fs.named value).isSome ∧ Throwing value := by
  rw [processVariable, FileSystem.named, ← readReplacements_eq_none_iff]
  split_ifs with hlength
  · simp
  · cases fs.resolve (trim ((splitWithEscapedPipe value).headD [])) <;> simp

/-- A variable changes the file it names and nothing else. -/
theorem file_processVariable (h : processVariable fs value = some fs') :
    fs'.resolve = fs.resolve ∧ ∀ id, fs'.file id =
      if fs.named value = some id then patchFile (fs.file id) value else fs.file id := by
  rw [processVariable] at h
  rw [FileSystem.named]
  split_ifs at h with hlength
  · obtain rfl := Option.some.inj h
    simp [hlength]
  · rw [if_neg hlength]
    cases hresolve : fs.resolve (trim ((splitWithEscapedPipe value).headD [])) with
    | none =>
      rw [hresolve] at h
      obtain rfl := Option.some.inj h
      exact ⟨rfl, fun id => rfl⟩
    | some yamlFile =>
      simp only [hresolve, Option.map_eq_some_iff] at h
      obtain ⟨replacements, hread, rfl⟩ := h
      refine ⟨rfl, fun id => ?_⟩
      by_cases hid : id = yamlFile
      · simp [hid, patchFile, hread]
      · simp [hid, Ne.symm hid]

/-! ## All variables -/

theorem completes_iff :
    (processVariables fs values).2 = true ↔
      ∀ value ∈ values, (fs.named value).isSome → ¬Throwing value := by
  induction values generalizing fs with
  | nil => simp [processVariables]
  | cons value values ih =>
    rw [processVariables, List.forall_mem_cons]
    cases hprocess : processVariable fs value with
    | none =>
      obtain ⟨hnamed, hthrows⟩ := processVariable_eq_none_iff.mp hprocess
      simp [hnamed, hthrows]
    | some fs' =>
      have hsound : (fs.named value).isSome → ¬Throwing value := fun hnamed hthrows => by
        cases (processVariable_eq_none_iff.mpr ⟨hnamed, hthrows⟩).symm.trans hprocess
      rw [ih, and_iff_right hsound]
      simp only [named_congr (file_processVariable hprocess).1]

/-- If nothing is thrown, a file is patched by the variables that name it, in turn. -/
theorem file_processVariables
    (h : ∀ value ∈ values, (fs.named value).isSome → ¬Throwing value) (id : Id) :
    (processVariables fs values).1.file id =
      (values.filter (fs.named · = some id)).foldl patchFile (fs.file id) := by
  induction values generalizing fs with
  | nil => rfl
  | cons value values ih =>
    rw [processVariables]
    obtain ⟨hvalue, hvalues⟩ := List.forall_mem_cons.mp h
    cases hprocess : processVariable fs value with
    | none =>
      obtain ⟨hnamed, hthrows⟩ := processVariable_eq_none_iff.mp hprocess
      exact absurd hthrows (hvalue hnamed)
    | some fs' =>
      obtain ⟨hresolve, hfile⟩ := file_processVariable hprocess
      have hnamed := named_congr hresolve
      rw [ih (by simpa only [hnamed] using hvalues), List.filter_cons, hfile]
      simp only [hnamed, decide_eq_true_eq]
      split_ifs <;> rfl

/-- The variable names the file. -/
def names (fs : FileSystem Id) (id : Id) (envVar : Text × Text) : Bool :=
  fs.named envVar.2 = some id

/-- The program comes to its end, and every file is as if there were only the variables that
name it. -/
structure ProcessesAll (fs : FileSystem Id) (envVars : List (Text × Text)) : Prop where
  completes : (main fs envVars).2 = true
  separate : ∀ id,
    (main fs envVars).1.file id = (main fs (envVars.filter (names fs id))).1.file id

/-- All variables are processed if and only if none that names a file has a value that throws. -/
theorem processesAll_iff {envVars : List (Text × Text)} :
    ProcessesAll fs envVars ↔ ∀ envVar ∈ envVars, isPatchVariable envVar.1 →
      (fs.named envVar.2).isSome → ¬Throwing envVar.2 := by
  have hcompletes : (main fs envVars).2 = true ↔ ∀ envVar ∈ envVars,
      isPatchVariable envVar.1 → (fs.named envVar.2).isSome → ¬Throwing envVar.2 := by
    rw [main, completes_iff, List.forall_mem_map]
    simp only [List.mem_filter, and_imp]
  rw [← hcompletes]
  refine ⟨fun h => h.completes, fun h => ⟨h, fun id => ?_⟩⟩
  have hsound := completes_iff.mp h
  have hfewer : ∀ value ∈ ((envVars.filter (names fs id)).filter (isPatchVariable ·.1)).map (·.2),
      (fs.named value).isSome → ¬Throwing value := by
    intro value hvalue
    refine hsound value (List.map_subset _ ?_ hvalue)
    rw [List.filter_comm]
    exact List.filter_subset_self _
  rw [main, main, file_processVariables hsound, file_processVariables hfewer]
  congr 1
  rw [List.filter_map, List.filter_map, List.filter_filter, List.filter_filter,
    List.filter_filter]
  congr 1
  refine List.filter_congr fun envVar _ => ?_
  simp [names, Bool.and_comm]

/-- The file of the only variable that names it ends up as with this variable alone. -/
theorem ProcessesAll.alone {envVars : List (Text × Text)} {envVar : Text × Text}
    (h : ProcessesAll fs envVars) (honly : envVars.filter (names fs id) = [envVar]) :
    (main fs envVars).1.file id = (main fs [envVar]).1.file id := by
  rw [h.separate, honly]

end

/-- Two files with empty mappings. -/
def twoFiles : FileSystem Text where
  resolve path := if path = "a.yml".toList ∨ path = "b.yml".toList then some path else none
  file _ := ⟨some [], true⟩

/-- The first value is a lone quotation mark. -/
def twoVars : List (Text × Text) := [
  ("PATCH_YAML_CONFIG_A".toList, "a.yml|motd=\"".toList),
  ("PATCH_YAML_CONFIG_B".toList, "b.yml|motd=hello".toList)]

theorem readReplacements_hello :
    readReplacements (splitWithEscapedPipe "b.yml|motd=hello".toList) =
      some [("motd".toList, .value (.leaf (.str "hello".toList)))] := by
  have hlines : splitWithEscapedPipe "b.yml|motd=hello".toList =
      ["b.yml".toList, "motd=hello".toList] := by decide +kernel
  have hvalue : parseValue "hello".toList = some (.leaf (.str "hello".toList)) := by
    have hnumber : toIntOrNull "hello".toList = none := by decide +kernel
    rw [parseValue, if_neg (by decide +kernel), if_neg (by decide +kernel),
      if_neg (by decide +kernel), if_neg (by decide +kernel), hnumber]
    exact dif_neg (by decide +kernel)
  have htext : trim (("motd=hello".toList.dropWhile (· ≠ '=')).drop 1) = "hello".toList := by
    decide +kernel
  have hkey : parseKeyWithIndex (trim ("motd=hello".toList.takeWhile (· ≠ '='))) =
      ("motd".toList, none, []) := by decide +kernel
  have hline : parseLine "motd=hello".toList =
      some (some ⟨"motd".toList, none, [], .leaf (.str "hello".toList)⟩) := by
    rw [parseLine, if_neg (by decide), htext]
    simp only [hkey, hvalue]
    rfl
  rw [hlines]
  simp only [readReplacements, List.drop_succ_cons, List.drop_zero, List.mapM_cons, hline,
    List.mapM_nil, Option.bind_eq_bind, Option.bind_some]
  rfl

/-- The second file is not patched, although its variable is well-formed. -/
theorem second_file_not_patched :
    ¬∀ (fs : FileSystem Text) (envVars : List (Text × Text)), ProcessesAll fs envVars := by
  intro h
  have hlines : splitWithEscapedPipe "a.yml|motd=\"".toList =
      ["a.yml".toList, "motd=\"".toList] := by decide +kernel
  have hthrows : processVariable twoFiles "a.yml|motd=\"".toList = none := by
    refine processVariable_eq_none_iff.mpr ⟨by decide +kernel, .inl ⟨"motd=\"".toList, ?_⟩⟩
    rw [hlines]
    refine ⟨by decide +kernel, by decide +kernel, ?_⟩
    have htext : valueText "motd=\"".toList = ['\x22'] := by decide +kernel
    rw [htext]
    exact .double
  have hboth : main twoFiles twoVars = (twoFiles, false) := by
    have hvalues : (twoVars.filter (isPatchVariable ·.1)).map (·.2) =
        ["a.yml|motd=\"".toList, "b.yml|motd=hello".toList] := by decide +kernel
    rw [main, hvalues, processVariables, hthrows]
  have hone : ((main twoFiles [("PATCH_YAML_CONFIG_B".toList,
      "b.yml|motd=hello".toList)]).1.file "b.yml".toList).document =
        some [(.str "motd".toList, .leaf (.str "hello".toList))] := by
    have hnamed : twoFiles.named "b.yml|motd=hello".toList = some "b.yml".toList := by
      decide +kernel
    have hvalues : ([("PATCH_YAML_CONFIG_B".toList, "b.yml|motd=hello".toList)].filter
        (isPatchVariable ·.1)).map (·.2) = ["b.yml|motd=hello".toList] := by decide +kernel
    cases hprocess : processVariable twoFiles "b.yml|motd=hello".toList with
    | none =>
      have hnone := readReplacements_eq_none_iff.mpr (processVariable_eq_none_iff.mp hprocess).2
      cases readReplacements_hello.symm.trans hnone
    | some fs' =>
      rw [main, hvalues, processVariables, hprocess]
      simp only [processVariables]
      rw [(file_processVariable hprocess).2, if_pos hnamed, patchFile, readReplacements_hello]
      rfl
  have honly : twoVars.filter (names twoFiles "b.yml".toList) =
      [("PATCH_YAML_CONFIG_B".toList, "b.yml|motd=hello".toList)] := by decide +kernel
  have halone := (h twoFiles twoVars).alone honly
  rw [hboth] at halone
  rw [← halone] at hone
  cases hone

end Minikura.Patcher
