import Mathlib.Data.List.ReduceOption
import Minikura.Patcher.Replacements

/-!
# What a patch touches

The list that indexed lines make takes the place of the list in the document: its other
elements and the other keys of the elements that are addressed are gone. A patch touches only
what it names just when nothing of that is there.

## Main definitions

* `TouchesOnly` — the document as it was apart from the addressed locations, which read back.
* `Harmless` — what the document and the lines must be like for that.

## Main results

* `process_touchesOnly_iff` — a patch touches only what it names just if it is harmless.
* `siblings_lost` — an indexed line that takes the rest of the list along.
-/

namespace Minikura.Patcher

/-- No line addresses a location above that of another. -/
def PrefixFree (patches : List Patch) : Prop :=
  ∀ p ∈ patches, ∀ q ∈ patches, p.target.location <+: q.target.location →
    p.target.location = q.target.location

structure TouchesOnly (patches : List Patch) (data data' : Entries) : Prop where
  frame : ∀ loc, (∀ p ∈ patches, Apart p.target.location loc) →
    (Tree.map data').get loc = (Tree.map data).get loc
  readback : ∀ pre p post, patches = pre ++ p :: post →
    (∀ q ∈ post, q.target.location ≠ p.target.location) →
      (Tree.map data').get p.target.location = parseValue p.value

/-- Some line addresses a key of this element. -/
def Addressed (patches : List Patch) (path : List Text) (i : Nat) : Prop :=
  ∃ p ∈ patches, p.target.path = path ∧ p.target.index = some i

/-- The lists that lines index have nothing but what these address. -/
structure OnlyAddressed (patches : List Patch) (data : Entries) : Prop where
  /-- What a line indexes is no mapping with entries. -/
  mappings : ∀ p ∈ patches, p.target.index.isSome → ∀ k,
    (Tree.map data).get (keys p.target.path ++ [.key k]) = none
  /-- Before an addressed element, any other is an empty mapping. -/
  fillers : ∀ p ∈ patches, ∀ i, p.target.index = some i → ∀ j < i,
    ¬Addressed patches p.target.path j →
      (Tree.map data).get (keys p.target.path ++ [.index j]) = some (.map [])
  /-- There are no elements after the addressed ones. -/
  ends : ∀ p ∈ patches, p.target.index.isSome → ∀ j,
    (∀ i, Addressed patches p.target.path i → i < j) →
      (Tree.map data).get (keys p.target.path ++ [.index j]) = none
  /-- An addressed element has no keys but the addressed ones. -/
  elements : ∀ p ∈ patches, ∀ j, p.target.index = some j → ∀ s,
    (∀ q ∈ patches, q.target.location ≠ keys p.target.path ++ [.index j, s]) →
      (Tree.map data).get (keys p.target.path ++ [.index j, s]) = none

structure Harmless (patches : List Patch) (data : Entries) : Prop where
  /-- No value makes the parser throw. -/
  values : ∀ p ∈ patches, (parseValue p.value).isSome
  indices : ∀ p ∈ patches, ∀ i, p.target.index = some i → i ≤ maxInt
  /-- No line goes on with keys where another has an index. -/
  bases : ∀ p ∈ patches, ∀ q ∈ patches, p.target.index.isSome →
    p.target.path <+: q.target.path → p.target.path = q.target.path
  lists : ∀ p ∈ patches, NoList data p.target.path
  only : OnlyAddressed patches data

/-! ## From the lines to the replacements -/

/-- The edit of a line whose value does not make the parser throw. -/
def Patch.parsed (p : Patch) : Edit := p.edit ((parseValue p.value).getD (.leaf .null))

def linesAt (patches : List Patch) (path : List Text) : List Patch :=
  patches.filter (·.target.path = path)

theorem mem_linesAt {patches : List Patch} {path : List Text} {q : Patch} :
    q ∈ linesAt patches path ↔ q ∈ patches ∧ q.target.path = path := by
  simp [linesAt]

theorem linesAt_append_cons (pre : List Patch) (p : Patch) (post : List Patch) :
    linesAt (pre ++ p :: post) p.target.path =
      linesAt pre p.target.path ++ p :: linesAt post p.target.path := by
  simp [linesAt]

section Lines

variable {patches : List Patch} {lines : List Text} {data data' : Entries}

theorem mapM_parseLine (h : List.Forall₂ Patch.Writes patches lines) {out : List (Option Edit)} :
    lines.mapM parseLine = some out ↔
      (∀ p ∈ patches, (parseValue p.value).isSome) ∧ out = patches.map (some ·.parsed) := by
  induction h generalizing out with
  | nil => exact ⟨fun h => ⟨by simp, (Option.some.inj h).symm⟩, fun h => h.2 ▸ rfl⟩
  | @cons p line patches lines hline h ih =>
    rw [List.mapM_cons, parseLine_of_writes hline]
    cases hvalue : parseValue p.value with
    | none => simp [hvalue]
    | some v =>
      have hparsed : p.parsed = p.edit v := by rw [Patch.parsed, hvalue]; rfl
      simp only [Option.map_some, Option.bind_eq_bind, Option.bind_some,
        Option.bind_eq_some_iff, ih, List.forall_mem_cons, hvalue, Option.isSome_some, true_and,
        List.map_cons, hparsed]
      constructor
      · rintro ⟨_, ⟨hvalues, rfl⟩, hout⟩
        exact ⟨hvalues, (Option.some.inj hout).symm⟩
      · rintro ⟨hvalues, rfl⟩
        exact ⟨_, ⟨hvalues, rfl⟩, rfl⟩

theorem process_eq_written {value : Text} (hne : patches ≠ [])
    (h : List.Forall₂ Patch.Writes patches ((splitWithEscapedPipe value).drop 1)) :
    process value data = .written data' ↔
      (∀ p ∈ patches, (parseValue p.value).isSome) ∧
        ∃ replacements, gather [] (patches.map Patch.parsed) = some replacements ∧
          updateYaml data replacements = data' := by
  have hlength : ¬(splitWithEscapedPipe value).length < 2 := by
    have hlines := h.length_eq
    have hpatches := List.length_pos_iff.mpr hne
    rw [List.length_drop] at hlines
    omega
  have hreduce : (patches.map (some ·.parsed)).reduceOption = patches.map Patch.parsed := by
    simp [List.reduceOption, List.filterMap_map]
  simp only [process, if_neg hlength]
  by_cases hvalues : ∀ p ∈ patches, (parseValue p.value).isSome
  · rw [(mapM_parseLine h).mpr ⟨hvalues, rfl⟩]
    simp only [hreduce]
    cases gather [] (patches.map Patch.parsed) with
    | none => simp
    | some replacements => simpa using fun _ => hvalues
  · cases hparse : ((splitWithEscapedPipe value).drop 1).mapM parseLine with
    | none => simp [hvalues]
    | some out => exact absurd ((mapM_parseLine h).mp hparse).1 hvalues

/-- The last line of those that do something. -/
theorem exists_last {P : Patch → Prop} {p : Patch} (hp : p ∈ patches) (h : P p) :
    ∃ pre p' post, patches = pre ++ p' :: post ∧ P p' ∧ ∀ q ∈ post, ¬P q := by
  induction patches generalizing p with
  | nil => simp at hp
  | cons first patches ih =>
    by_cases hlater : ∃ q ∈ patches, P q
    · obtain ⟨q, hq, hPq⟩ := hlater
      obtain ⟨pre, p', post, rfl, hp', hpost⟩ := ih hq hPq
      exact ⟨first :: pre, p', post, rfl, hp', hpost⟩
    · have hnone : ∀ q ∈ patches, ¬P q := fun q hq hPq => hlater ⟨q, hq, hPq⟩
      rcases List.mem_cons.mp hp with rfl | hp
      · exact ⟨[], p, patches, rfl, h, hnone⟩
      · exact absurd h (hnone p hp)

theorem filter_parsed (hwf : ∀ p ∈ patches, p.target.WellFormed) {path : List Text}
    (hpath : IsPath path) :
    (patches.map Patch.parsed).filter (·.baseKey = dotted path) =
      (linesAt patches path).map Patch.parsed := by
  rw [List.filter_map, linesAt]
  congr 1
  refine List.filter_congr fun p hp => ?_
  have hiff : dotted p.target.path = dotted path ↔ p.target.path = path :=
    ⟨dotted_injective (hwf p hp).isPath hpath, fun h => h ▸ rfl⟩
  exact decide_eq_decide.mpr hiff

end Lines

/-! ## The paths of the lines -/

def BasesApart (patches : List Patch) : Prop :=
  ∀ p ∈ patches, ∀ q ∈ patches, p.target.index.isSome →
    p.target.path <+: q.target.path → p.target.path = q.target.path

section Paths

variable {patches : List Patch} {p q : Patch}

theorem index_eq_none_of_path_eq (hfree : PrefixFree patches) (hp : p ∈ patches)
    (hq : q ∈ patches) (hpath : p.target.path = q.target.path) (hindex : p.target.index = none) :
    q.target.index = none := by
  by_contra hsome
  obtain ⟨i, hi⟩ := Option.ne_none_iff_exists'.mp hsome
  have hp' := Target.location_of_none hindex
  have hq' := Target.location_of_some hi
  have heq := hfree p hp q hq (by rw [hp', hq', hpath]; exact List.prefix_append _ _)
  rw [hp', hq', hpath] at heq
  simpa using congrArg List.length heq

variable (hfree : PrefixFree patches)
  (hbases : BasesApart patches)

include hfree hbases

theorem path_eq_of_isPrefix (hp : p ∈ patches) (hq : q ∈ patches)
    (h : p.target.path <+: q.target.path) : p.target.path = q.target.path := by
  cases hindex : p.target.index with
  | some i => exact hbases p hp q hq (by rw [hindex]; rfl) h
  | none =>
    have hp' := Target.location_of_none hindex
    have heq := hfree p hp q hq (by
      rw [hp']
      exact (keys_prefix_iff.mpr h).trans q.target.keys_path_prefix)
    rw [hp'] at heq
    have hback := keys_prefix_iff.mp (heq ▸ q.target.keys_path_prefix)
    exact h.eq_of_length_le hback.length_le

theorem apart_of_path_ne (hp : p ∈ patches) (hq : q ∈ patches)
    (hne : p.target.path ≠ q.target.path) : Apart (keys p.target.path) (keys q.target.path) :=
  ⟨fun h => hne (path_eq_of_isPrefix hfree hbases hp hq (keys_prefix_iff.mp h)),
    fun h => hne (path_eq_of_isPrefix hfree hbases hq hp (keys_prefix_iff.mp h)).symm⟩

/-- Below the path of an indexed line, only lines with its path matter. -/
theorem apart_below {rest : Location} (hp : p ∈ patches) (hq : q ∈ patches)
    (hsome : p.target.index.isSome)
    (h : ∀ i, q.target.index = some i → q.target.path = p.target.path →
      Apart [.index i, .key (.str q.target.subKey)] rest) :
    Apart q.target.location (keys p.target.path ++ rest) := by
  by_cases hpath : q.target.path = p.target.path
  · cases hindex : q.target.index with
    | none =>
      rw [index_eq_none_of_path_eq hfree hq hp hpath hindex] at hsome
      simp at hsome
    | some i =>
      rw [Target.location_of_some hindex, hpath]
      have hrest := h i hindex hpath
      exact ⟨fun hp => hrest.1 ((List.prefix_append_right_inj _).mp hp),
        fun hp => hrest.2 ((List.prefix_append_right_inj _).mp hp)⟩
  · have hapart := apart_of_path_ne hfree hbases hq hp hpath
    exact hapart.mono q.target.keys_path_prefix (List.prefix_append _ _)

end Paths

/-! ## The written document -/

section Written

variable {patches : List Patch} {data data' : Entries} {p : Patch}
  {replacements : List (Text × Replacement)} (hwf : ∀ p ∈ patches, p.target.WellFormed)
  (hgather : gather [] (patches.map Patch.parsed) = some replacements)

include hwf hgather

theorem exists_patch_of_mem {r : Text × Replacement} (hr : r ∈ replacements) :
    ∃ p ∈ patches, r.1 = dotted p.target.path ∧ r.1.splitOn '.' = p.target.path := by
  have hkey := (mem_keys_gather hgather r.1).mp (List.mem_map_of_mem hr)
  rcases hkey with hnil | ⟨e, he, hbase⟩
  · simp at hnil
  · obtain ⟨p, hp, rfl⟩ := List.mem_map.mp he
    exact ⟨p, hp, hbase.symm, by rw [← hbase]; exact splitOn_dotted (hwf p hp).isPath⟩

variable (hfree : PrefixFree patches)
  (hbases : BasesApart patches)

include hfree hbases

theorem pairwise_apart : replacements.Pairwise fun r r' =>
    Apart (keys (r.1.splitOn '.')) (keys (r'.1.splitOn '.')) := by
  have hnodup := List.pairwise_map.mp (nodup_gather hgather List.nodup_nil)
  refine hnodup.imp_of_mem fun {r r'} hr hr' hne => ?_
  obtain ⟨p, hp, hbase, hsplit⟩ := exists_patch_of_mem hwf hgather hr
  obtain ⟨q, hq, hbase', hsplit'⟩ := exists_patch_of_mem hwf hgather hr'
  rw [hsplit, hsplit']
  refine apart_of_path_ne hfree hbases hp hq fun heq => hne ?_
  rw [hbase, hbase', heq]

theorem get_written_apart (hlists : ∀ p ∈ patches, NoList data p.target.path) {loc : Location}
    (h : ∀ p ∈ patches, Apart (keys p.target.path) loc) :
    (Tree.map (updateYaml data replacements)).get loc = (Tree.map data).get loc := by
  refine get_updateYaml_apart (pairwise_apart hwf hgather hfree hbases) ?_ ?_
  · intro r hr
    obtain ⟨p, hp, -, hsplit⟩ := exists_patch_of_mem hwf hgather hr
    exact hsplit ▸ hlists p hp
  · intro r hr
    obtain ⟨p, hp, -, hsplit⟩ := exists_patch_of_mem hwf hgather hr
    exact hsplit ▸ h p hp

variable (data) in
/-- Below a path stands what the edits of its lines make. -/
theorem get_written (hp : p ∈ patches) : ∃ r,
    runEdits none ((linesAt patches p.target.path).map Patch.parsed) = some (some r) ∧
      ∀ loc, (Tree.map (updateYaml data replacements)).get (keys p.target.path ++ loc) =
        r.tree.get loc := by
  have hpath := (hwf p hp).isPath
  have hrun := gather_lookup hgather (dotted p.target.path)
  rw [filter_parsed hwf hpath] at hrun
  have hkey : dotted p.target.path ∈ replacements.map (·.1) :=
    (mem_keys_gather hgather _).mpr (.inr ⟨p.parsed, List.mem_map_of_mem hp, rfl⟩)
  obtain ⟨⟨base, r⟩, hmem, hbase⟩ := List.mem_map.mp hkey
  cases hlookup : replacements.lookup (dotted p.target.path) with
  | none =>
    have hne := List.lookup_eq_none_iff.mp hlookup _ hmem
    simp [← hbase] at hne
  | some r' =>
    refine ⟨r', by rw [← hlookup]; exact hrun, fun loc => ?_⟩
    obtain ⟨l, l', hsplit, -⟩ := List.lookup_eq_some_iff.mp hlookup
    have hmem' : (dotted p.target.path, r') ∈ replacements := by simp [hsplit]
    have hget := get_updateYaml_path data
      (pairwise_apart hwf hgather hfree hbases) hmem' loc
    rwa [splitOn_dotted hpath] at hget

end Written

/-! ## Lists with nothing else -/

section OnlyAddressed

variable {patches : List Patch} {data data' : Entries} {p : Patch} {i j : Nat}

namespace OnlyAddressed

/-- An element that no line addresses is the same in two such documents. -/
theorem get_index_congr (h : OnlyAddressed patches data) (h' : OnlyAddressed patches data')
    (hp : p ∈ patches) (hsome : p.target.index.isSome)
    (hother : ¬Addressed patches p.target.path j) :
    (Tree.map data).get (keys p.target.path ++ [.index j]) =
      (Tree.map data').get (keys p.target.path ++ [.index j]) := by
  by_cases hlater : ∃ i, Addressed patches p.target.path i ∧ j < i
  · obtain ⟨i, ⟨q, hq, hpath, hi⟩, hj⟩ := hlater
    rw [← hpath] at hother ⊢
    rw [h.fillers q hq i hi j hj hother, h'.fillers q hq i hi j hj hother]
  · have hlast : ∀ i, Addressed patches p.target.path i → i < j := by
      intro i hi
      by_contra hle
      rcases Nat.lt_or_eq_of_le (Nat.not_lt.mp hle) with hlt | rfl
      · exact hlater ⟨i, hi, hlt⟩
      · exact hother hi
    rw [h.ends p hp hsome j hlast, h'.ends p hp hsome j hlast]

/-- In an element that a line addresses, both have nothing outside the addressed keys. -/
theorem get_element_congr (h : OnlyAddressed patches data) (h' : OnlyAddressed patches data')
    (hp : p ∈ patches) (hj : p.target.index = some j) {rest : Location}
    (hapart : ∀ q ∈ patches, Apart q.target.location (keys p.target.path ++ .index j :: rest)) :
    (Tree.map data).get (keys p.target.path ++ .index j :: rest) =
      (Tree.map data').get (keys p.target.path ++ .index j :: rest) := by
  cases rest with
  | nil =>
    refine absurd ?_ (hapart p hp).2
    rw [Target.location_of_some hj]
    exact (List.prefix_append_right_inj _).mpr (by simp)
  | cons s rest =>
    have hother : ∀ q ∈ patches, q.target.location ≠ keys p.target.path ++ [.index j, s] := by
      intro q hq hloc
      exact (hapart q hq).1 ⟨rest, by rw [hloc]; simp⟩
    have hsplit : keys p.target.path ++ .index j :: s :: rest =
        keys p.target.path ++ [.index j, s] ++ rest := by simp
    rw [hsplit, Tree.get_append_none (h.elements p hp j hj s hother),
      Tree.get_append_none (h'.elements p hp j hj s hother)]

/-- Two such documents differ in the lists only where lines address them. -/
theorem get_congr (h : OnlyAddressed patches data) (h' : OnlyAddressed patches data')
    (hp : p ∈ patches) (hsome : p.target.index.isSome) {rest : Location}
    (hapart : ∀ q ∈ patches, Apart q.target.location (keys p.target.path ++ rest)) :
    (Tree.map data).get (keys p.target.path ++ rest) =
      (Tree.map data').get (keys p.target.path ++ rest) := by
  match rest with
  | [] =>
    refine absurd ?_ (hapart p hp).2
    rw [List.append_nil]
    exact p.target.keys_path_prefix
  | .key k :: rest =>
    rw [List.append_cons, Tree.get_append_none (h.mappings p hp hsome k),
      Tree.get_append_none (h'.mappings p hp hsome k)]
  | .index j :: rest =>
    by_cases haddressed : Addressed patches p.target.path j
    · obtain ⟨q, hq, hpath, hj⟩ := haddressed
      rw [← hpath] at hapart ⊢
      exact h.get_element_congr h' hq hj hapart
    · rw [List.append_cons]
      exact Tree.get_append_congr (h.get_index_congr h' hp hsome haddressed) rest

end OnlyAddressed

end OnlyAddressed

/-! ## The lists that indexed lines make -/

def itemsAt (patches : List Patch) (path : List Text) : List Entries :=
  setItems [] ((linesAt patches path).map Patch.parsed)

section Lists

variable {patches : List Patch} {p : Patch} {e : Edit} {j : Nat} (hfree : PrefixFree patches)
  (hindices : ∀ p ∈ patches, ∀ i, p.target.index = some i → i ≤ maxInt) (hp : p ∈ patches)
  (hsome : p.target.index.isSome)

theorem parsed_index (h : ∀ i, p.target.index = some i → i ≤ maxInt) :
    p.parsed.index = p.target.index := by
  change p.target.index.filter (· ≤ maxInt) = p.target.index
  cases hindex : p.target.index with
  | none => rfl
  | some i => exact Option.filter_some_pos (decide_eq_true (h i hindex))

include hfree hindices hp

theorem index_of_mem_linesAt (hindex : p.target.index = none)
    (he : e ∈ (linesAt patches p.target.path).map Patch.parsed) : e.index = none := by
  obtain ⟨q, hq, rfl⟩ := List.mem_map.mp he
  obtain ⟨hq, hpath⟩ := mem_linesAt.mp hq
  rw [parsed_index (hindices q hq)]
  exact index_eq_none_of_path_eq hfree hp hq hpath.symm hindex

include hsome

theorem exists_of_mem_linesAt (he : e ∈ (linesAt patches p.target.path).map Patch.parsed) :
    ∃ q ∈ patches, ∃ i, e = q.parsed ∧ q.target.path = p.target.path ∧
      q.target.index = some i ∧ e.index = some i := by
  obtain ⟨q, hq, rfl⟩ := List.mem_map.mp he
  obtain ⟨hq, hpath⟩ := mem_linesAt.mp hq
  cases hindex : q.target.index with
  | none =>
    rw [index_eq_none_of_path_eq hfree hq hp hpath hindex] at hsome
    simp at hsome
  | some i => exact ⟨q, hq, i, rfl, hpath, hindex, by rw [parsed_index (hindices q hq), hindex]⟩

theorem runEdits_linesAt : runEdits none ((linesAt patches p.target.path).map Patch.parsed) =
    some (some (.array [] (itemsAt patches p.target.path))) := by
  refine runEdits_indexed (fun e he => ?_) ?_
  · obtain ⟨q, hq, i, -, -, -, hi⟩ := exists_of_mem_linesAt hfree hindices hp hsome he
    rw [hi]
    rfl
  · have hmem : p ∈ linesAt patches p.target.path := mem_linesAt.mpr ⟨hp, rfl⟩
    exact List.ne_nil_of_mem (List.mem_map_of_mem hmem)

theorem lt_length_itemsAt : j < (itemsAt patches p.target.path).length ↔
    ∃ i, Addressed patches p.target.path i ∧ j ≤ i := by
  rw [itemsAt, lt_length_setItems]
  constructor
  · rintro (hj | ⟨e, he, hj⟩)
    · simp at hj
    · obtain ⟨q, hq, i, -, hpath, hindex, hi⟩ := exists_of_mem_linesAt hfree hindices hp hsome he
      rw [hi] at hj
      exact ⟨i, ⟨q, hq, hpath, hindex⟩, hj⟩
  · rintro ⟨i, ⟨q, hq, hpath, hindex⟩, hj⟩
    have hmem : q ∈ linesAt patches p.target.path := mem_linesAt.mpr ⟨hq, hpath⟩
    refine .inr ⟨q.parsed, List.mem_map_of_mem hmem, ?_⟩
    rwa [parsed_index (hindices q hq), hindex]

theorem itemAt_itemsAt (h : ¬Addressed patches p.target.path j) :
    itemAt (itemsAt patches p.target.path) j = [] := by
  refine itemAt_setItems_of_ne fun e he hj => h ?_
  obtain ⟨q, hq, i, -, hpath, hindex, hi⟩ := exists_of_mem_linesAt hfree hindices hp hsome he
  rw [hi] at hj
  exact ⟨q, hq, hpath, hj ▸ hindex⟩

theorem lookup_itemsAt {σ : Scalar} (h : ∀ q ∈ patches,
    q.target.location ≠ keys p.target.path ++ [.index j, .key σ]) :
    (itemAt (itemsAt patches p.target.path) j).lookup σ = none := by
  refine (lookup_setItems fun e he hj hkey => ?_).trans rfl
  obtain ⟨q, hq, i, rfl, hpath, hindex, hi⟩ := exists_of_mem_linesAt hfree hindices hp hsome he
  refine h q hq ?_
  rw [hi] at hj
  rw [Target.location_of_some hindex, hpath, ← hj, ← hkey]
  rfl

end Lists

section Written

variable {patches : List Patch} {data data' : Entries} {p : Patch}
  {replacements : List (Text × Replacement)} (hwf : ∀ p ∈ patches, p.target.WellFormed)
  (hgather : gather [] (patches.map Patch.parsed) = some replacements)
  (hfree : PrefixFree patches)
  (hbases : BasesApart patches)
  (hindices : ∀ p ∈ patches, ∀ i, p.target.index = some i → i ≤ maxInt)

include hwf hgather hfree hbases hindices

theorem get_written_indexed (hp : p ∈ patches) (hsome : p.target.index.isSome) (loc : Location) :
    (Tree.map (updateYaml data replacements)).get (keys p.target.path ++ loc) =
      (Tree.list ((itemsAt patches p.target.path).map .map)).get loc := by
  obtain ⟨r, hrun, hget⟩ := get_written data hwf hgather hfree hbases hp
  rw [runEdits_linesAt hfree hindices hp hsome] at hrun
  cases hrun
  exact hget loc

theorem onlyAddressed_written : OnlyAddressed patches (updateYaml data replacements) where
  mappings p hp hsome k := by
    rw [get_written_indexed hwf hgather hfree hbases hindices hp hsome]
    rfl
  fillers p hp i hi j hj hother := by
    have hsome : p.target.index.isSome := by rw [hi]; rfl
    have hlt : j < (itemsAt patches p.target.path).length :=
      (lt_length_itemsAt hfree hindices hp hsome).mpr ⟨i, ⟨p, hp, rfl, hi⟩, Nat.le_of_lt hj⟩
    rw [get_written_indexed hwf hgather hfree hbases hindices hp hsome, get_items, if_pos hlt,
      itemAt_itemsAt hfree hindices hp hsome hother, Tree.get_nil]
  ends p hp hsome j hlast := by
    have hge : ¬j < (itemsAt patches p.target.path).length := by
      rw [lt_length_itemsAt hfree hindices hp hsome]
      rintro ⟨i, hi, hj⟩
      exact Nat.not_lt.mpr hj (hlast i hi)
    rw [get_written_indexed hwf hgather hfree hbases hindices hp hsome, get_items, if_neg hge]
  elements p hp j hj s hother := by
    have hsome : p.target.index.isSome := by rw [hj]; rfl
    rw [get_written_indexed hwf hgather hfree hbases hindices hp hsome, get_items]
    split_ifs with hlt
    · cases s with
      | index i => rfl
      | key σ =>
        rw [Tree.get_map_key, lookup_itemsAt hfree hindices hp hsome hother]
        rfl
    · rfl

theorem get_written_of_onlyAddressed (hlists : ∀ p ∈ patches, NoList data p.target.path)
    (honly : OnlyAddressed patches data) {loc : Location}
    (h : ∀ p ∈ patches, Apart p.target.location loc) :
    (Tree.map (updateYaml data replacements)).get loc = (Tree.map data).get loc := by
  have hwritten : OnlyAddressed patches (updateYaml data replacements) :=
    onlyAddressed_written hwf hgather hfree hbases hindices
  by_cases hapart : ∀ p ∈ patches, Apart (keys p.target.path) loc
  · exact get_written_apart hwf hgather hfree hbases hlists hapart
  · push Not at hapart
    obtain ⟨p, hp, hnot⟩ := hapart
    have hbelow : keys p.target.path <+: loc := by
      by_contra hno
      exact hnot ⟨hno, fun hp' => (h p hp).2 (hp'.trans p.target.keys_path_prefix)⟩
    obtain ⟨rest, rfl⟩ := hbelow
    cases hindex : p.target.index with
    | none =>
      refine absurd ?_ (h p hp).1
      rw [Target.location_of_none hindex]
      exact List.prefix_append _ _
    | some i =>
      exact hwritten.get_congr honly hp (by rw [hindex]; rfl) h

/-- The last line of a location is read back. -/
theorem get_written_last {pre post : List Patch} (hpatches : patches = pre ++ p :: post)
    (hlast : ∀ q ∈ post, q.target.location ≠ p.target.location)
    (hvalue : (parseValue p.value).isSome) :
    (Tree.map (updateYaml data replacements)).get p.target.location = parseValue p.value := by
  have hp : p ∈ patches := by simp [hpatches]
  have hpost : ∀ q ∈ post, q ∈ patches := fun q hq => by simp [hpatches, hq]
  have hparsed : parseValue p.value = some p.parsed.value := by
    obtain ⟨v, hv⟩ := Option.isSome_iff_exists.mp hvalue
    rw [Patch.parsed, hv]
    rfl
  have hlines : (linesAt patches p.target.path).map Patch.parsed =
      (linesAt pre p.target.path).map Patch.parsed ++
        p.parsed :: (linesAt post p.target.path).map Patch.parsed := by
    rw [hpatches, linesAt_append_cons, List.map_append, List.map_cons]
  cases hindex : p.target.index with
  | none =>
    have hnil : linesAt post p.target.path = [] := by
      refine List.filter_eq_nil_iff.mpr fun q hq hpath => hlast q hq ?_
      have hpath : q.target.path = p.target.path := of_decide_eq_true hpath
      have hnone := index_eq_none_of_path_eq hfree hp (hpost q hq) hpath.symm hindex
      rw [Target.location_of_none hnone, Target.location_of_none hindex, hpath]
    obtain ⟨r, hrun, hget⟩ := get_written data hwf hgather hfree hbases hp
    rw [runEdits_plain fun e => index_of_mem_linesAt hfree hindices hp hindex, hlines,
      hnil] at hrun
    have hr : Replacement.value p.parsed.value = r := by simpa using hrun
    have hroot := hget []
    rw [List.append_nil, Tree.get_nil, ← hr] at hroot
    rw [Target.location_of_none hindex, hroot, hparsed]
    rfl
  | some i =>
    have hsome : p.target.index.isSome := by rw [hindex]; rfl
    have hi : p.parsed.index.getD 0 = i := by
      rw [parsed_index (hindices p hp), hindex]
      rfl
    have hlt : i < (itemsAt patches p.target.path).length :=
      (lt_length_itemsAt hfree hindices hp hsome).mpr ⟨i, ⟨p, hp, rfl, hindex⟩, Nat.le_refl i⟩
    have hlookup : (itemAt (itemsAt patches p.target.path) (p.parsed.index.getD 0)).lookup
        (.str p.parsed.subKey) = some p.parsed.value := by
      rw [itemsAt, hlines]
      refine lookup_setItems_last fun e he hj hkey => ?_
      obtain ⟨q, hq, rfl⟩ := List.mem_map.mp he
      obtain ⟨hq, hpath⟩ := mem_linesAt.mp hq
      cases hqindex : q.target.index with
      | none =>
        have hnone := index_eq_none_of_path_eq hfree (hpost q hq) hp hpath hqindex
        rw [hnone] at hindex
        simp at hindex
      | some j =>
        rw [hi, parsed_index (hindices q (hpost q hq)), hqindex, Option.getD_some] at hj
        have hkey : q.target.subKey = p.target.subKey := hkey
        refine hlast q hq ?_
        rw [Target.location_of_some hqindex, Target.location_of_some hindex, hpath, hj, hkey]
    have hkey : p.target.subKey = p.parsed.subKey := rfl
    rw [Target.location_of_some hindex,
      get_written_indexed hwf hgather hfree hbases hindices hp hsome, get_items, if_pos hlt,
      Tree.get_map_key, ← hi, hkey, hlookup, Option.bind_some, Tree.get_nil, hparsed]

end Written

/-! ## When nothing else is touched -/

section TouchesOnly

variable {patches : List Patch} {data data' : Entries}

theorem touchesOnly_of_harmless {replacements : List (Text × Replacement)}
    (hwf : ∀ p ∈ patches, p.target.WellFormed) (hfree : PrefixFree patches)
    (hgather : gather [] (patches.map Patch.parsed) = some replacements)
    (h : Harmless patches data) : TouchesOnly patches data (updateYaml data replacements) where
  frame _ hloc :=
    get_written_of_onlyAddressed hwf hgather hfree h.bases h.indices h.lists h.only hloc
  readback _ p _ hpatches hlast :=
    get_written_last hwf hgather hfree h.bases h.indices hpatches hlast
      (h.values p (by simp [hpatches]))

/-- The edits of a harmless patch do not throw. -/
theorem exists_gather_of_harmless (hwf : ∀ p ∈ patches, p.target.WellFormed)
    (hfree : PrefixFree patches) (h : Harmless patches data) :
    ∃ replacements, gather [] (patches.map Patch.parsed) = some replacements := by
  refine exists_gather fun base => ?_
  by_cases hbase : ∃ p ∈ patches, dotted p.target.path = base
  · obtain ⟨p, hp, rfl⟩ := hbase
    rw [filter_parsed hwf (hwf p hp).isPath]
    cases hindex : p.target.index with
    | some i => exact ⟨_, runEdits_linesAt hfree h.indices hp (by rw [hindex]; rfl)⟩
    | none =>
      exact ⟨_, runEdits_plain (fun e => index_of_mem_linesAt hfree h.indices hp hindex) _⟩
  · have hnil : (patches.map Patch.parsed).filter (·.baseKey = base) = [] := by
      refine List.filter_eq_nil_iff.mpr fun e he heq => hbase ?_
      obtain ⟨p, hp, rfl⟩ := List.mem_map.mp he
      exact ⟨p, hp, of_decide_eq_true heq⟩
    rw [hnil]
    exact ⟨_, rfl⟩

theorem exists_get_of_touchesOnly (h : TouchesOnly patches data data')
    (hvalues : ∀ p ∈ patches, (parseValue p.value).isSome) {p : Patch} (hp : p ∈ patches) :
    ∃ v, (Tree.map data').get p.target.location = some v := by
  obtain ⟨pre, p', post, hpatches, hloc, hlast⟩ :=
    exists_last (P := fun q => q.target.location = p.target.location) hp rfl
  have hread := h.readback pre p' post hpatches (by rw [hloc]; exact hlast)
  rw [← hloc, hread]
  exact Option.isSome_iff_exists.mp (hvalues p' (by simp [hpatches]))

theorem basesApart_of_touchesOnly (h : TouchesOnly patches data data')
    (hvalues : ∀ p ∈ patches, (parseValue p.value).isSome) : BasesApart patches := by
  intro p hp q hq hsome hbelow
  obtain ⟨rest, hrest⟩ := hbelow
  cases rest with
  | nil => rw [← hrest, List.append_nil]
  | cons k rest =>
    -- at the path there cannot be a list and a mapping
    obtain ⟨i, hi⟩ := Option.isSome_iff_exists.mp hsome
    obtain ⟨u, hu⟩ := exists_get_of_touchesOnly h hvalues hp
    obtain ⟨v, hv⟩ := exists_get_of_touchesOnly h hvalues hq
    obtain ⟨tail, htail⟩ := q.target.keys_path_prefix
    have hq' : q.target.location = keys p.target.path ++ .key (.str k) :: (keys rest ++ tail) := by
      rw [← htail, ← hrest, keys_append, List.append_assoc]
      rfl
    rw [Target.location_of_some hi] at hu
    rw [hq'] at hv
    exact (Tree.not_get_key_of_get_index hu hv).elim

theorem lists_of_touchesOnly (h : TouchesOnly patches data data')
    (hvalues : ∀ p ∈ patches, (parseValue p.value).isSome) (hfree : PrefixFree patches)
    {p : Patch} (hp : p ∈ patches) : NoList data p.target.path := by
  have hbases := basesApart_of_touchesOnly h hvalues
  intro q k r hpath i
  by_contra hne
  obtain ⟨u, hu⟩ := Option.ne_none_iff_exists'.mp hne
  have hmapping : keys p.target.path = keys q ++ .key (.str k) :: keys r := by
    rw [hpath, keys_append]
    rfl
  have houtside : ∀ p' ∈ patches, Apart p'.target.location (keys q ++ [.index i]) := by
    intro p' hp'
    by_cases hpath' : p'.target.path = p.target.path
    · refine Apart.mono ?_ p'.target.keys_path_prefix List.prefix_rfl
      rw [hpath', hmapping]
      constructor <;> intro hp'' <;> simp [List.prefix_append_right_inj] at hp''
    · have hapart := apart_of_path_ne hfree hbases hp' hp hpath'
      rw [hpath] at hapart
      exact (apart_index i hapart).mono p'.target.keys_path_prefix List.prefix_rfl
  have hlist := h.frame _ houtside
  rw [hu] at hlist
  obtain ⟨v, hv⟩ := exists_get_of_touchesOnly h hvalues hp
  obtain ⟨tail, htail⟩ := p.target.keys_path_prefix
  rw [← htail, hmapping, List.append_assoc, List.cons_append] at hv
  exact Tree.not_get_key_of_get_index hlist hv

/-- The last line with an index that is too large would be read back below its own value. -/
theorem indices_of_readback {replacements : List (Text × Replacement)}
    (hwf : ∀ p ∈ patches, p.target.WellFormed) (hfree : PrefixFree patches)
    (hgather : gather [] (patches.map Patch.parsed) = some replacements)
    (h : TouchesOnly patches data (updateYaml data replacements))
    (hvalues : ∀ p ∈ patches, (parseValue p.value).isSome) {p : Patch} (hp : p ∈ patches) {i : Nat}
    (hi : p.target.index = some i) : i ≤ maxInt := by
  by_contra hlarge
  obtain ⟨pre, q, post, hpatches, ⟨hpath, j, hj, hjlarge⟩, hlast⟩ :=
    exists_last (P := fun q => q.target.path = p.target.path ∧
      ∃ j, q.target.index = some j ∧ maxInt < j) hp ⟨rfl, i, hi, Nat.not_le.mp hlarge⟩
  have hq : q ∈ patches := by simp [hpatches]
  obtain ⟨v, hv⟩ := Option.isSome_iff_exists.mp (hvalues q hq)
  have hread := h.readback pre q post hpatches fun q' hq' hloc => by
    obtain ⟨hpath', hindex', -⟩ := Target.eq_of_location hloc
    exact hlast q' hq' ⟨hpath'.trans hpath, j, hindex'.trans hj, hjlarge⟩
  have hbases := basesApart_of_touchesOnly h hvalues
  obtain ⟨r, hrun, hget⟩ := get_written data hwf hgather hfree hbases hq
  rw [Target.location_of_some hj, hget, hv] at hread
  rw [hpatches, linesAt_append_cons, List.map_append, List.map_cons, runEdits_append,
    Option.bind_eq_some_iff] at hrun
  obtain ⟨before, -, hrun⟩ := hrun
  have hplain : q.parsed.apply before = some (.value v) := by
    have hindex : q.parsed.index = none := by
      change q.target.index.filter (· ≤ maxInt) = none
      rw [hj, Option.filter_some_neg (by simpa using hjlarge)]
    have hvalue : q.parsed.value = v := by
      change (parseValue q.value).getD (.leaf .null) = v
      rw [hv, Option.getD_some]
    rw [Edit.apply, hindex]
    exact congrArg (some ∘ Replacement.value) hvalue
  rw [runEdits, hplain, Option.bind_some] at hrun
  refine runEdits_overflow hjlarge (fun e he => ?_) hrun hread
  obtain ⟨q', hq', rfl⟩ := List.mem_map.mp he
  obtain ⟨hq', hpath'⟩ := mem_linesAt.mp hq'
  have hmem : q' ∈ patches := by simp [hpatches, hq']
  cases hindex' : q'.target.index with
  | none =>
    rw [index_eq_none_of_path_eq hfree hmem hq hpath' hindex'] at hj
    simp at hj
  | some j' =>
    have hsmall : j' ≤ maxInt := by
      by_contra hno
      exact hlast q' hq' ⟨hpath'.trans hpath, j', hindex', Nat.not_le.mp hno⟩
    refine ⟨j', hsmall, ?_⟩
    rw [parsed_index, hindex']
    intro k hk
    rw [hindex'] at hk
    exact Option.some.inj hk ▸ hsmall

theorem onlyAddressed_of_frame (hfree : PrefixFree patches)
    (hbases : BasesApart patches)
    (hframe : ∀ loc, (∀ p ∈ patches, Apart p.target.location loc) →
      (Tree.map data').get loc = (Tree.map data).get loc)
    (h : OnlyAddressed patches data') : OnlyAddressed patches data where
  mappings p hp hsome k := by
    rw [← hframe, h.mappings p hp hsome k]
    intro q hq
    exact apart_below hfree hbases hp hq hsome fun i _ _ => by simp [Apart, List.cons_prefix_cons]
  fillers p hp i hi j hj hother := by
    rw [← hframe, h.fillers p hp i hi j hj hother]
    intro q hq
    refine apart_below hfree hbases hp hq (by rw [hi]; rfl) fun i' hi' hpath => ?_
    have hne : i' ≠ j := fun heq => hother ⟨q, hq, hpath, heq ▸ hi'⟩
    simp [Apart, List.cons_prefix_cons, hne, Ne.symm hne]
  ends p hp hsome j hlast := by
    rw [← hframe, h.ends p hp hsome j hlast]
    intro q hq
    refine apart_below hfree hbases hp hq hsome fun i hi hpath => ?_
    have hne : i ≠ j := Nat.ne_of_lt (hlast i ⟨q, hq, hpath, hi⟩)
    simp [Apart, List.cons_prefix_cons, hne, Ne.symm hne]
  elements p hp j hj s hother := by
    rw [← hframe, h.elements p hp j hj s hother]
    intro q hq
    refine apart_below hfree hbases hp hq (by rw [hj]; rfl) fun i hi hpath => ?_
    have hne : i = j → Step.key (.str q.target.subKey) ≠ s := by
      rintro rfl rfl
      exact hother q hq (by rw [Target.location_of_some hi, hpath])
    constructor
    · intro hbelow
      simp only [List.cons_prefix_cons, List.prefix_rfl, and_true] at hbelow
      exact hne (Step.index.inj hbelow.1) hbelow.2
    · intro hbelow
      simp only [List.cons_prefix_cons, List.prefix_rfl, and_true] at hbelow
      exact hne (Step.index.inj hbelow.1).symm hbelow.2.symm

/-- A patch touches only what its lines address just if it is harmless. -/
theorem process_touchesOnly_iff {value : Text} (hne : patches ≠ [])
    (hlines : List.Forall₂ Patch.Writes patches ((splitWithEscapedPipe value).drop 1))
    (hfree : PrefixFree patches) (data : Entries) :
    (∃ data', process value data = .written data' ∧ TouchesOnly patches data data') ↔
      Harmless patches data := by
  have hwf := wellFormed_of_writes hlines
  constructor
  · rintro ⟨data', hwritten, h⟩
    obtain ⟨hvalues, replacements, hgather, rfl⟩ := (process_eq_written hne hlines).mp hwritten
    have hbases := basesApart_of_touchesOnly h hvalues
    have hindices : ∀ p ∈ patches, ∀ i, p.target.index = some i → i ≤ maxInt :=
      fun p hp i hi => indices_of_readback hwf hfree hgather h hvalues hp hi
    exact {
      values := hvalues
      indices := hindices
      bases := hbases
      lists := fun p hp => lists_of_touchesOnly h hvalues hfree hp
      only := onlyAddressed_of_frame hfree hbases h.frame
        (onlyAddressed_written hwf hgather hfree hbases hindices) }
  · intro h
    obtain ⟨replacements, hgather⟩ := exists_gather_of_harmless hwf hfree h
    exact ⟨_, (process_eq_written hne hlines).mpr ⟨h.values, replacements, hgather, rfl⟩,
      touchesOnly_of_harmless hwf hfree hgather h⟩

end TouchesOnly

/-- The address of one server of a list. -/
def serverPatch : Patch :=
  ⟨.indexed ["servers".toList] "0".toList "address".toList, "10.0.0.1:25565".toList⟩

def serverLine : Text := "velocity.yml|servers[0].address=10.0.0.1:25565".toList

def serverConfig : Entries :=
  [(.str "servers".toList, .list [
    .map [(.str "address".toList, .leaf (.str "localhost".toList)),
      (.str "port".toList, .leaf (.int 25565))],
    .map [(.str "address".toList, .leaf (.str "backup".toList))]])]

theorem writes_serverLine :
    List.Forall₂ Patch.Writes [serverPatch] ((splitWithEscapedPipe serverLine).drop 1) := by
  have hlines : (splitWithEscapedPipe serverLine).drop 1 =
      ["servers[0].address=10.0.0.1:25565".toList] := by decide +kernel
  rw [hlines]
  exact .cons ⟨by decide +kernel, "servers[0].address".toList, "10.0.0.1:25565".toList,
    by decide +kernel, by decide +kernel, by decide +kernel, by decide +kernel⟩ .nil

theorem parseValue_serverPatch :
    parseValue serverPatch.value = some (.leaf (.str serverPatch.value)) := by
  have hnumber : toIntOrNull serverPatch.value = none := by decide +kernel
  rw [parseValue, if_neg (by decide +kernel), if_neg (by decide +kernel),
    if_neg (by decide +kernel), if_neg (by decide +kernel), hnumber]
  exact dif_neg (by decide +kernel)

/-- The port of the server is lost with the second server. -/
theorem siblings_lost : List.Forall₂ Patch.Writes [serverPatch]
      ((splitWithEscapedPipe serverLine).drop 1) ∧ PrefixFree [serverPatch] ∧
    ∃ data', process serverLine serverConfig = .written data' ∧
      ¬TouchesOnly [serverPatch] serverConfig data' := by
  refine ⟨writes_serverLine, by simp [PrefixFree], _,
    (process_eq_written (by simp) writes_serverLine).mpr
      ⟨by simp [parseValue_serverPatch], _, rfl, rfl⟩, fun h => ?_⟩
  have hport := h.frame [.key (.str "servers".toList), .index 0, .key (.str "port".toList)] (by
    intro p hp
    obtain rfl := List.mem_singleton.mp hp
    unfold Apart
    decide +kernel)
  have hlost : (none : Option Yaml) = some (.leaf (.int 25565)) := hport
  simp at hlost

/-- A patch that changes the only key of the only server, and a nested text. -/
def harmlessPatches : List Patch :=
  [serverPatch, ⟨.plain ["motd".toList, "line".toList], "10.0.0.1:25565".toList⟩]

def harmlessLine : Text :=
  "velocity.yml|servers[0].address=10.0.0.1:25565|motd.line=10.0.0.1:25565".toList

def harmlessConfig : Entries :=
  [(.str "servers".toList, .list [.map [(.str "address".toList, .leaf (.str "localhost".toList))]]),
    (.str "motd".toList, .map [(.str "online".toList, .leaf (.bool true))])]

theorem harmless_harmlessPatches : Harmless harmlessPatches harmlessConfig where
  values p hp := by
    have hvalue : p.value = serverPatch.value := by
      revert p
      decide +kernel
    rw [hvalue, parseValue_serverPatch]
    rfl
  indices := by
    have h : ∀ p ∈ harmlessPatches, p.target.index.all (· ≤ maxInt) := by decide +kernel
    intro p hp i hi
    have := h p hp
    simpa [hi] using this
  bases := by decide +kernel
  lists := by
    have hpaths : ∀ p ∈ harmlessPatches, p.target.path = ["servers".toList] ∨
        p.target.path = ["motd".toList, "line".toList] := by decide +kernel
    intro p hp q k r hpath i
    rcases hpaths p hp with h | h <;> rw [h] at hpath
    · match q with
      | [] => rfl
      | _ :: _ => simp at hpath
    · match q with
      | [] => rfl
      | [key] =>
        obtain rfl := (List.cons.inj hpath).1
        rfl
      | _ :: _ :: _ => simp at hpath
  only := by
    have hindexed : ∀ p ∈ harmlessPatches, p.target.index.isSome → p = serverPatch := by
      decide +kernel
    have haddressed : Addressed harmlessPatches serverPatch.target.path 0 :=
      ⟨serverPatch, by simp [harmlessPatches], rfl, by decide +kernel⟩
    refine ⟨fun p hp hsome k => ?_, fun p hp i hi j hj => ?_, fun p hp hsome j hlast => ?_,
      fun p hp j hj s hother => ?_⟩
    · obtain rfl := hindexed p hp hsome
      rfl
    · obtain rfl := hindexed p hp (by rw [hi]; rfl)
      obtain rfl : 0 = i := Option.some.inj hi
      exact absurd hj (Nat.not_lt_zero j)
    · obtain rfl := hindexed p hp hsome
      obtain ⟨j, rfl⟩ := Nat.exists_eq_add_of_lt (hlast 0 haddressed)
      rw [Nat.zero_add]
      rfl
    · obtain rfl := hindexed p hp (by rw [hj]; rfl)
      obtain rfl : 0 = j := Option.some.inj hj
      cases s with
      | index i => rfl
      | key σ =>
        have hne : σ ≠ .str "address".toList := by
          rintro rfl
          exact hother serverPatch (by simp [harmlessPatches]) rfl
        change (([(.str "address".toList, .leaf (.str "localhost".toList))] : Entries).lookup
          σ).bind _ = none
        rw [lookup_cons_ite, if_neg hne]
        rfl

theorem process_touchesOnly_harmless : ∃ data',
    process harmlessLine harmlessConfig = .written data' ∧
      TouchesOnly harmlessPatches harmlessConfig data' := by
  have hlines : (splitWithEscapedPipe harmlessLine).drop 1 =
      ["servers[0].address=10.0.0.1:25565".toList, "motd.line=10.0.0.1:25565".toList] := by
    decide +kernel
  have hwrites : List.Forall₂ Patch.Writes harmlessPatches
      ((splitWithEscapedPipe harmlessLine).drop 1) := by
    rw [hlines]
    refine .cons ?_ (.cons ?_ .nil)
    · exact ⟨by decide +kernel, "servers[0].address".toList, "10.0.0.1:25565".toList,
        by decide +kernel, by decide +kernel, by decide +kernel, by decide +kernel⟩
    · exact ⟨by decide +kernel, "motd.line".toList, "10.0.0.1:25565".toList,
        by decide +kernel, by decide +kernel, by decide +kernel, by decide +kernel⟩
  exact (process_touchesOnly_iff (by decide) hwrites (by unfold PrefixFree; decide +kernel)
    harmlessConfig).mpr harmless_harmlessPatches

end Minikura.Patcher
