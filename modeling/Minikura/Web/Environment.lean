import Minikura.Web.ServerForm

/-!
# The environment variables of the form

Under a managed key stands what the form puts there, unless a custom variable takes its place;
under any other key stand the custom variables.

## Main results

* `environmentOf_eq` — the variables of data whose custom variables are in order.
* `environmentValue_fields`, `filterCustom_fields` — what is read back of them.
-/

namespace Minikura.Web

open Backend (EnvVariable)

/-! ## Managed keys -/

namespace ManagedKey

theorem mem_all (k : ManagedKey) : k ∈ all := by
  cases k <;> decide

theorem nodup_names : (all.map name).Nodup := by decide +kernel

theorem name_injective : Function.Injective name := fun k k' h =>
  List.inj_on_of_nodup_map nodup_names (mem_all k) (mem_all k') h

end ManagedKey

theorem isManaged_iff {key : String} : isManaged key = true ↔ ∃ k : ManagedKey, k.name = key := by
  simp [isManaged, ManagedKey.mem_all]

theorem isManaged_name (k : ManagedKey) : isManaged k.name = true := isManaged_iff.mpr ⟨k, rfl⟩

section Managed

variable {data : ServerFormData} {managed : List (String × String)}

theorem lookup_filterMap_name (value : ManagedKey → Option String) (l : List ManagedKey)
    (k : ManagedKey) :
    (l.filterMap fun k => (value k).map (k.name, ·)).lookup k.name =
      if k ∈ l then value k else none := by
  induction l with
  | nil => rfl
  | cons j l ih =>
    rw [List.filterMap_cons]
    by_cases hjk : k = j
    · subst hjk
      cases hvalue : value k with
      | none => simp [ih, hvalue]
      | some v => simp
    · have hname : k.name ≠ j.name := fun h => hjk (ManagedKey.name_injective h)
      cases hvalue : value j with
      | none => simp [ih, hjk]
      | some v => simp [ih, hjk, lookup_cons_ite, hname]

theorem managed_eq (h : toManagedEnvironmentVariables data = some managed) :
    managed = ManagedKey.all.filterMap fun k => (managedValue data k).map (k.name, ·) := by
  rw [toManagedEnvironmentVariables] at h
  split_ifs at h
  exact (Option.some.inj h).symm

theorem lookup_managed (h : toManagedEnvironmentVariables data = some managed) (k : ManagedKey) :
    managed.lookup k.name = managedValue data k := by
  rw [managed_eq h, lookup_filterMap_name, if_pos (ManagedKey.mem_all k)]

theorem isManaged_of_mem (h : toManagedEnvironmentVariables data = some managed)
    {e : String × String} (he : e ∈ managed) : isManaged e.1 = true := by
  rw [managed_eq h] at he
  obtain ⟨k, -, hk⟩ := List.mem_filterMap.mp he
  obtain ⟨v, -, rfl⟩ := Option.map_eq_some_iff.mp hk
  exact isManaged_name k

theorem nodup_managed (h : toManagedEnvironmentVariables data = some managed) :
    (managed.map (·.1)).Nodup := by
  have hsublist : (managed.map (·.1)).Sublist (ManagedKey.all.map ManagedKey.name) := by
    rw [managed_eq h]
    induction ManagedKey.all with
    | nil => exact .slnil
    | cons k l ih =>
      rw [List.filterMap_cons]
      cases managedValue data k with
      | none => exact ih.cons _
      | some v => exact ih.cons_cons _
  exact ManagedKey.nodup_names.sublist hsublist

end Managed

/-! ## Custom variables -/

/-- Custom variables that neither clash nor take the place of a managed one. -/
structure CustomVariables (vars : List EnvVariable) : Prop where
  nodup : (vars.map (·.key)).Nodup
  key_ne : ∀ v ∈ vars, v.key ≠ ""
  value_ne : ∀ v ∈ vars, v.value ≠ ""
  notManaged : ∀ v ∈ vars, isManaged v.key = false

/-- Those that an object can hold. -/
def holdable (vars : List EnvVariable) : List EnvVariable := vars.filter (·.key ≠ "__proto__")

def pair (v : EnvVariable) : String × String := (v.key, v.value)

section Custom

variable {data : ServerFormData} {managed : List (String × String)} {vars : List EnvVariable}

theorem environmentOf_eq_setEntries (h : CustomVariables vars) :
    environmentOf managed vars = setEntries managed ((holdable vars).map pair) := by
  obtain ⟨-, hkey, hvalue, -⟩ := h
  induction vars generalizing managed with
  | nil => rfl
  | cons v vars ih =>
    have hv : v.key ≠ "" ∧ v.value ≠ "" := ⟨hkey v (by simp), hvalue v (by simp)⟩
    have hrest := fun managed => @ih managed (fun v hv => hkey v (by simp [hv]))
      (fun v hv => hvalue v (by simp [hv]))
    rw [environmentOf, List.foldl_cons, if_pos hv, ← environmentOf, hrest, holdable, holdable]
    by_cases hproto : v.key = "__proto__"
    · simp [setProperty, hproto]
    · simp [setProperty, hproto, pair]

theorem nodup_environment (hmanaged : toManagedEnvironmentVariables data = some managed)
    (h : CustomVariables vars) :
    ((managed ++ (holdable vars).map pair).map (·.1)).Nodup := by
  rw [List.map_append, List.map_map, List.nodup_append]
  refine ⟨nodup_managed hmanaged, h.nodup.sublist (List.filter_sublist.map _), ?_⟩
  rintro key hkey key' hkey' rfl
  obtain ⟨e, he, rfl⟩ := List.mem_map.mp hkey
  obtain ⟨v, hv, hv'⟩ := List.mem_map.mp hkey'
  have hnot := h.notManaged v (List.mem_filter.mp hv).1
  have hyes := isManaged_of_mem hmanaged he
  rw [← hv'] at hyes
  exact Bool.false_ne_true (hnot.symm.trans hyes)

theorem environmentOf_eq (hmanaged : toManagedEnvironmentVariables data = some managed)
    (h : CustomVariables vars) :
    environmentOf managed vars = managed ++ (holdable vars).map pair := by
  rw [environmentOf_eq_setEntries h]
  exact setEntries_of_nodup (nodup_environment hmanaged h)

end Custom

/-! ## Reading back -/

section Fields

variable {data : ServerFormData} {fields : CommonServerRequestFields}

theorem lookup_eq_none {environment : List (String × String)} {key : String}
    (h : ∀ e ∈ environment, e.1 ≠ key) : environment.lookup key = none :=
  List.lookup_eq_none_iff.mpr fun e he => by simpa using Ne.symm (h e he)

theorem exists_managed (hfields : toCommonServerRequestFields data = some fields) :
    ∃ managed, toManagedEnvironmentVariables data = some managed ∧
      fields.envVariables =
        (environmentOf managed data.envVars).map fun (key, value) => ⟨key, value⟩ := by
  obtain ⟨managed, hmanaged, rfl⟩ := Option.map_eq_some_iff.mp hfields
  exact ⟨managed, hmanaged, rfl⟩

variable (hfields : toCommonServerRequestFields data = some fields)
  (h : CustomVariables data.envVars)

include hfields h

theorem exists_envVariables : ∃ managed, toManagedEnvironmentVariables data = some managed ∧
    fields.envVariables.map pair = managed ++ (holdable data.envVars).map pair := by
  obtain ⟨managed, hmanaged, henv⟩ := exists_managed hfields
  refine ⟨managed, hmanaged, ?_⟩
  rw [henv, List.map_map, ← environmentOf_eq hmanaged h]
  exact List.map_id _

theorem nodup_keys_fields : (fields.envVariables.map (·.key)).Nodup := by
  obtain ⟨managed, hmanaged, henv⟩ := exists_envVariables hfields h
  have hkeys : fields.envVariables.map (·.key) = (fields.envVariables.map pair).map (·.1) := by
    rw [List.map_map]
    rfl
  rw [hkeys, henv]
  exact nodup_environment hmanaged h

theorem variableAt_fields (key : String) : ∃ managed,
    toManagedEnvironmentVariables data = some managed ∧
      variableAt fields.envVariables key =
        (managed.lookup key).or (((holdable data.envVars).map pair).lookup key) := by
  obtain ⟨managed, hmanaged, henv⟩ := exists_envVariables hfields h
  refine ⟨managed, hmanaged, ?_⟩
  have hnodup := nodup_environment hmanaged h
  rw [← List.nil_append (managed ++ _)] at hnodup
  change (setEntries [] (fields.envVariables.map pair)).lookup key = _
  rw [henv, setEntries_of_nodup hnodup, List.nil_append, List.lookup_append]

theorem environmentValue_fields (k : ManagedKey) :
    environmentValue fields.envVariables k = managedValue data k := by
  obtain ⟨managed, hmanaged, hvalue⟩ := variableAt_fields hfields h k.name
  have hcustom : ((holdable data.envVars).map pair).lookup k.name = none := by
    refine lookup_eq_none fun e he hname => ?_
    obtain ⟨v, hv, rfl⟩ := List.mem_map.mp he
    have hnot := h.notManaged v (List.mem_filter.mp hv).1
    rw [show v.key = k.name from hname, isManaged_name] at hnot
    exact Bool.false_ne_true hnot.symm
  rw [environmentValue, hvalue, hcustom, Option.or_none, lookup_managed hmanaged]

theorem variableAt_fields_of_not {key : String} (hkey : isManaged key = false) :
    variableAt fields.envVariables key = ((holdable data.envVars).map pair).lookup key := by
  obtain ⟨managed, hmanaged, hvalue⟩ := variableAt_fields hfields h key
  have hnone : managed.lookup key = none := by
    refine lookup_eq_none fun e he hname => ?_
    have hyes := isManaged_of_mem hmanaged he
    rw [hname, hkey] at hyes
    exact Bool.false_ne_true hyes
  rw [hvalue, hnone, Option.none_or]

/-- The custom variables come back, but one that the object does not hold. -/
theorem filterCustom_fields :
    filterCustomEnvironmentVariables fields.envVariables = holdable data.envVars := by
  obtain ⟨managed, hmanaged, henv⟩ := exists_envVariables hfields h
  have hback : ∀ vars : List EnvVariable, vars = (vars.map pair).map fun e => ⟨e.1, e.2⟩ := by
    intro vars
    rw [List.map_map]
    exact (List.map_id vars).symm
  rw [hback fields.envVariables, henv, List.map_append, ← hback, filterCustomEnvironmentVariables,
    List.filter_append]
  have hmanagedOut : (managed.map fun e : String × String =>
      (⟨e.1, e.2⟩ : EnvVariable)).filter (!isManaged ·.key) = [] := by
    refine List.filter_eq_nil_iff.mpr fun v hv => ?_
    obtain ⟨e, he, rfl⟩ := List.mem_map.mp hv
    simp [isManaged_of_mem hmanaged he]
  have hcustomIn : (holdable data.envVars).filter (!isManaged ·.key) = holdable data.envVars := by
    refine List.filter_eq_self.mpr fun v hv => ?_
    simp [h.notManaged v (List.mem_filter.mp hv).1]
  rw [hmanagedOut, hcustomIn, List.nil_append]

end Fields

end Minikura.Web
