import Mathlib.Data.List.Pairwise
import Minikura.Registry.Plans

/-!
# One version of a plugin per server

A transaction that installs plugins first deletes the rows in their way, but only those
it sees: a version installed by another transaction since then stays, and so do two
versions that one reconciliation asks for. Apart from these two cases no server ever
has two versions of a plugin.

## Main definitions

* `Tx.Exclusive` — the transaction commits neither of the two cases.
* `Tx.Progress`, `Tx.Locks`, `System.Inv` — the invariants of open transactions.

## Main results

* `oneVersion_of_exclusive` — runs whose commits are exclusive keep one version.
-/

namespace Minikura.Registry
open Concurrency

/-! ## The condition -/

def Installation.SameProject (x y : Installation) : Prop :=
  x.serverId = y.serverId ∧ x.project = y.project

/-- Of no project the transaction installs two versions, and since its deletion picked its
rows nobody else has installed another version. -/
structure Tx.Exclusive (db : Database) (tx : Tx) : Prop where
  versions : ∀ x ∈ tx.installed.filterMap db.installation,
    ∀ y ∈ tx.installed.filterMap db.installation, x.SameProject y → x.artifactId = y.artifactId
  seen : ∀ x ∈ tx.installed.filterMap db.installation, ∀ y ∈ db.installations,
    x.SameProject y → x.artifactId ≠ y.artifactId → y ∈ tx.snapshot

/-- The condition on a step: what it commits is exclusive. -/
def CommitsExclusive (x : System) : Label → Prop
  | .commit i _ => ∀ tx, x.tx? i = some tx → tx.Exclusive x.state.db
  | _ => True

/-! ## Invariants -/

def ServerPlugin.SamePlace (p q : ServerPlugin) : Prop :=
  p.serverId = q.serverId ∧ p.artifactId = q.artifactId

def ServerPlugin.Separate (p q : ServerPlugin) : Prop := p.id ≠ q.id ∧ ¬ p.SamePlace q

instance : Std.Symm ServerPlugin.Separate :=
  ⟨fun _ _ h => ⟨h.1.symm, fun h' => h.2 ⟨h'.1.symm, h'.2.symm⟩⟩⟩

/-- The constraints of the tables, and that issued ids stand for one project. -/
structure Database.Valid (db : Database) (issued : Issued) : Prop where
  unique : db.plugins.Pairwise ServerPlugin.Separate
  references : ∀ p ∈ db.plugins, (db.findArtifact p.artifactId).isSome
  issued : ∀ a ∈ db.artifacts, (a.id, a.project) ∈ issued

def Functional (issued : Issued) : Prop :=
  ∀ e ∈ issued, ∀ e' ∈ issued, e.1 = e'.1 → e.2 = e'.2

/-- What an open transaction may rely on thanks to its locks. -/
structure Tx.Locks (db : Database) (tx : Tx) : Prop where
  unique : tx.installed.Pairwise ServerPlugin.Separate
  artifacts : ∀ q ∈ tx.installed, (db.findArtifact q.artifactId).isSome ∧
    q.artifactId ∉ tx.deletedArtifacts
  place : ∀ q ∈ tx.installed, ∀ p ∈ db.plugins, p.SamePlace q → p.id = q.id ∨ p.id ∈ tx.deleted
  row : ∀ q ∈ tx.installed, ∀ p ∈ db.plugins, p.id = q.id → p.SamePlace q
  deleted : ∀ p ∈ (tx.view db).plugins, p.artifactId ∉ tx.deletedArtifacts

/-- Two open transactions write different rows and places. -/
structure Tx.Apart (tx o : Tx) : Prop where
  rows : ∀ q ∈ tx.installed, ∀ r ∈ o.installed, q.Separate r
  left : ∀ q ∈ tx.installed, q.artifactId ∉ o.deletedArtifacts
  right : ∀ q ∈ o.installed, q.artifactId ∉ tx.deletedArtifacts

/-- How far a planned transaction has come. -/
inductive Tx.Progress (issued : Issued) (tx : Tx) : Prop where
  | before {w : PluginWhere} {serverId : String} {ids : List String} {rest : List Statement}
      (plan : Plan issued w serverId ids rest) (rest_eq : tx.rest = .deletePlugins w :: rest)
      (nothing : tx.deleted = [] ∧ tx.installed = [] ∧ tx.deletedArtifacts = [])
      (picked : ∀ targets, tx.targets = some targets →
        ∀ y ∈ tx.snapshot, w.Covers y → y.id ∈ targets)
  | after {w : PluginWhere} {serverId : String} {ids : List String}
      (sound : Sound issued w serverId ids)
      (installs : ∀ s ∈ tx.rest, s.Installs serverId ids)
      (covered : ∀ y ∈ tx.snapshot, w.Covers y → y.id ∈ tx.deleted)
      (todo : ∀ a ∈ ids, (∃ id, .upsertPlugin id serverId a ∈ tx.rest) ∨
        ∃ q ∈ tx.installed, q.serverId = serverId ∧ q.artifactId = a)
      (done : ∀ q ∈ tx.installed, q.serverId = serverId ∧ q.artifactId ∈ ids)

/-! ## The steps of a transaction -/

section Steps

variable {db : Database} {issued : Issued} {tx tx' o : Tx} {others : List Tx}

theorem mem_view_plugins {p : ServerPlugin} :
    p ∈ (tx.view db).plugins ↔ (p ∈ db.plugins ∧ tx.writes p.id = false) ∨ p ∈ tx.installed := by
  simp [Tx.view]

theorem writes_eq_false {id : String} :
    tx.writes id = false ↔ id ∉ tx.deleted ∧ ∀ q ∈ tx.installed, q.id ≠ id := by
  simp [Tx.writes]

theorem findArtifact_view (id : String) : (tx.view db).findArtifact id =
    if id ∈ tx.deletedArtifacts then none else db.findArtifact id := by
  rw [Database.findArtifact, Database.findArtifact, Tx.view, List.find?_filter]
  split_ifs with h
  · refine List.find?_eq_none.mpr fun a _ => ?_
    by_cases hid : a.id = id
    · simp [hid, h]
    · simp [hid]
  · congr 1
    funext a
    by_cases hid : a.id = id
    · simp [hid, h]
    · simp [hid]

/-- What one statement does; the transactions that would block it have been waited for. -/
inductive Tx.Acts (db : Database) (others : List Tx) (tx : Tx) : Tx → Prop where
  | delete {w : PluginWhere} {rest : List Statement} {targets : List String}
      (rest_eq : tx.rest = .deletePlugins w :: rest) (targets_eq : tx.targets = some targets) :
      Acts db others tx { tx with
        rest, targets := none, deleted := tx.deleted ++ targets
        installed := tx.installed.filter (!targets.contains ·.id) }
  | update {id serverId artifactId : String} {rest : List Statement} {p : ServerPlugin}
      (rest_eq : tx.rest = .upsertPlugin id serverId artifactId :: rest)
      (free : ∀ o ∈ others, o.blocksInstall db id serverId artifactId = false)
      (found : (tx.view db).plugins.find? (·.at serverId artifactId) = some p) :
      Acts db others tx { tx with
        rest, installed := tx.installed.filter (·.id ≠ p.id) ++ [{ p with enabled := true }] }
  | insert {id serverId artifactId : String} {rest : List Statement}
      (rest_eq : tx.rest = .upsertPlugin id serverId artifactId :: rest)
      (free : ∀ o ∈ others, o.blocksInstall db id serverId artifactId = false)
      (found : (tx.view db).plugins.find? (·.at serverId artifactId) = none)
      (row : ∀ p ∈ db.plugins, p.id ≠ id) (own : ∀ p ∈ tx.installed, p.id ≠ id)
      (artifact : (tx.view db).findArtifact artifactId ≠ none) :
      Acts db others tx { tx with
        rest, installed := tx.installed ++ [{ id, serverId, artifactId }] }
  | deleteArtifact {id : String} {rest : List Statement}
      (rest_eq : tx.rest = .deleteArtifact id :: rest)
      (free : ∀ o ∈ others, o.blocksDeletion id = false)
      (unused : ∀ p ∈ (tx.view db).plugins, p.artifactId ≠ id) :
      Acts db others tx { tx with rest, deletedArtifacts := tx.deletedArtifacts ++ [id] }

theorem acts_of_act (h : tx.act db others = some tx') : tx.Acts db others tx' := by
  unfold Tx.act at h
  split at h
  · rename_i w rest targets hrest htargets
    split_ifs at h
    cases h
    exact .delete hrest htargets
  · rename_i id serverId artifactId rest hrest htargets
    split_ifs at h with hfree
    have hfree' : ∀ o ∈ others, o.blocksInstall db id serverId artifactId = false := by
      simpa using hfree
    unfold Tx.install at h
    rw [hrest] at h
    split at h
    · rename_i p hfound
      cases h
      exact .update hrest hfree' hfound
    · rename_i hfound
      split_ifs at h with hnew
      cases h
      push Not at hnew
      obtain ⟨hrow, hown, -, hartifact⟩ := hnew
      exact .insert hrest hfree' hfound (by simpa using hrow) (by simpa using hown) hartifact
  · rename_i id rest hrest htargets
    split_ifs at h with hfree
    cases h
    push Not at hfree
    obtain ⟨hfree, -, hunused⟩ := hfree
    exact .deleteArtifact hrest (by simpa using hfree) (by simpa using hunused)
  · cases h

theorem Tx.Locks.of_nothing (h : tx.installed = [] ∧ tx.deletedArtifacts = []) :
    tx.Locks db := by
  constructor <;> simp [h]

theorem at_iff {serverId artifactId : String} {p : ServerPlugin} :
    p.at serverId artifactId = true ↔ p.serverId = serverId ∧ p.artifactId = artifactId := by
  simp [ServerPlugin.at]

/-- Among the rows a transaction sees, ids and places are unique. -/
theorem view_unique (hdb : db.Valid issued) (hl : tx.Locks db) :
    (tx.view db).plugins.Pairwise ServerPlugin.Separate := by
  refine List.pairwise_append.mpr ⟨hdb.unique.sublist List.filter_sublist, hl.unique, ?_⟩
  intro p hp q hq
  obtain ⟨hmem, hfree⟩ := List.mem_filter.mp hp
  obtain ⟨hdel, hins⟩ := writes_eq_false.mp (by simpa using hfree)
  refine ⟨(hins q hq).symm, fun hplace => ?_⟩
  rcases hl.place q hq p hmem hplace with hid | hid
  · exact hins q hq hid.symm
  · exact hdel hid

theorem eq_of_unique {l : List ServerPlugin} {p q : ServerPlugin}
    (h : l.Pairwise ServerPlugin.Separate) (hp : p ∈ l) (hq : q ∈ l)
    (hpq : p.id = q.id ∨ p.SamePlace q) : p = q := by
  by_contra hne
  obtain ⟨hid, hplace⟩ := h.forall hp hq hne
  exact hpq.elim hid hplace

/-- The rows in the place of an upsert, whoever wrote them, are no other transaction's. -/
theorem not_blocksInstall {id serverId artifactId : String}
    (h : o.blocksInstall db id serverId artifactId = false) :
    (∀ q ∈ o.installed, ¬ (q.serverId = serverId ∧ q.artifactId = artifactId) ∧ q.id ≠ id) ∧
      (∀ p ∈ db.plugins, p.serverId = serverId → p.artifactId = artifactId →
        ∀ q ∈ o.installed, q.id ≠ p.id) ∧
      artifactId ∉ o.deletedArtifacts := by
  simp only [Tx.blocksInstall, Bool.or_eq_false_iff, List.any_eq_false] at h
  obtain ⟨⟨hins, hrow⟩, hdel⟩ := h
  refine ⟨fun q hq => ?_, fun p hp hs ha q hq => ?_, by simpa using hdel⟩
  · have := hins q hq
    simp only [Bool.or_eq_true, at_iff, beq_iff_eq, not_or] at this
    exact this
  · have := hrow p hp
    simp only [Bool.and_eq_true, at_iff, hs, ha, and_self, true_and, Bool.not_eq_true] at this
    exact (writes_eq_false.mp this).2 q hq

theorem not_blocksDeletion {id : String} (h : o.blocksDeletion id = false) :
    (∀ q ∈ o.installed, q.artifactId ≠ id) ∧ id ∉ o.deletedArtifacts := by
  simpa [Tx.blocksDeletion] using h

/-- The row an upsert finds is its own or nobody's. -/
theorem found_apart {id serverId artifactId : String} {p : ServerPlugin}
    (hapart : tx.Apart o) (hfree : o.blocksInstall db id serverId artifactId = false)
    (hfound : (tx.view db).plugins.find? (·.at serverId artifactId) = some p) :
    ∀ r ∈ o.installed, p.Separate r := by
  obtain ⟨hs, ha⟩ := at_iff.mp (List.find?_some hfound)
  obtain ⟨hins, hrow, -⟩ := not_blocksInstall hfree
  intro r hr
  refine ⟨?_, fun hplace => (hins r hr).1 ⟨hplace.1.symm.trans hs, hplace.2.symm.trans ha⟩⟩
  rcases mem_view_plugins.mp (List.mem_of_find?_eq_some hfound) with ⟨hp, -⟩ | hp
  · exact (hrow p hp hs ha r hr).symm
  · exact (hapart.rows p hp r hr).1

theorem Tx.Apart.install (hapart : tx.Apart o) {kept : List ServerPlugin} {r : ServerPlugin}
    {rest : List Statement} (hkept : kept ⊆ tx.installed)
    (hrows : ∀ q ∈ o.installed, r.Separate q) (hleft : r.artifactId ∉ o.deletedArtifacts) :
    ({ tx with rest, installed := kept ++ [r] } : Tx).Apart o where
  rows := List.forall_mem_append.mpr
    ⟨fun q hq => hapart.rows q (hkept hq), List.forall_mem_singleton.mpr hrows⟩
  left := List.forall_mem_append.mpr
    ⟨fun q hq => hapart.left q (hkept hq), List.forall_mem_singleton.mpr hleft⟩
  right := hapart.right

theorem Tx.Acts.apart (h : tx.Acts db others tx') (ho : o ∈ others) (hapart : tx.Apart o) :
    tx'.Apart o := by
  cases h with
  | delete =>
    exact ⟨fun q hq => hapart.rows q (List.mem_filter.mp hq).1,
      fun q hq => hapart.left q (List.mem_filter.mp hq).1, hapart.right⟩
  | @update id serverId artifactId rest p hrest free found =>
    obtain ⟨hs, ha⟩ := at_iff.mp (List.find?_some found)
    have hp := found_apart hapart (free o ho) found
    obtain ⟨-, -, hkeep⟩ := not_blocksInstall (free o ho)
    exact hapart.install List.filter_sublist.subset hp (ha ▸ hkeep)
  | @insert id serverId artifactId rest hrest free found row own artifact =>
    obtain ⟨hins, -, hkeep⟩ := not_blocksInstall (free o ho)
    refine hapart.install (List.Subset.refl _) (fun r hr => ?_) hkeep
    exact ⟨(hins r hr).2.symm, fun hplace => (hins r hr).1 ⟨hplace.1.symm, hplace.2.symm⟩⟩
  | @deleteArtifact id rest hrest free unused =>
    obtain ⟨hins, -⟩ := not_blocksDeletion (free o ho)
    refine ⟨hapart.rows, hapart.left, fun q hq hmem => ?_⟩
    rcases List.mem_append.mp hmem with hmem | hmem
    · exact hapart.right q hq hmem
    · exact hins q hq (List.mem_singleton.mp hmem)

/-- A row takes the place of those with its id. -/
theorem Tx.Locks.install (hl : tx.Locks db) {kept : List ServerPlugin} {r : ServerPlugin}
    {rest : List Statement} (hkept : kept.Sublist tx.installed)
    (hother : ∀ q ∈ tx.installed, q.id = r.id ∨ q ∈ kept) (hown : ∀ q ∈ kept, q.Separate r)
    (hart : (db.findArtifact r.artifactId).isSome ∧ r.artifactId ∉ tx.deletedArtifacts)
    (hplace : ∀ p ∈ db.plugins, p.SamePlace r → p.id = r.id ∨ p.id ∈ tx.deleted)
    (hrow : ∀ p ∈ db.plugins, p.id = r.id → p.SamePlace r) :
    ({ tx with rest, installed := kept ++ [r] } : Tx).Locks db where
  unique := by
    refine List.pairwise_append.mpr ⟨hl.unique.sublist hkept, by simp, fun q hq r' hr' => ?_⟩
    rw [List.mem_singleton.mp hr']
    exact hown q hq
  artifacts := List.forall_mem_append.mpr
    ⟨fun q hq => hl.artifacts q (hkept.subset hq), List.forall_mem_singleton.mpr hart⟩
  place := List.forall_mem_append.mpr
    ⟨fun q hq => hl.place q (hkept.subset hq), List.forall_mem_singleton.mpr hplace⟩
  row := List.forall_mem_append.mpr
    ⟨fun q hq => hl.row q (hkept.subset hq), List.forall_mem_singleton.mpr hrow⟩
  deleted q hq := by
    rcases mem_view_plugins.mp hq with ⟨hq, hfree⟩ | hq
    · obtain ⟨hdel, hins⟩ := writes_eq_false.mp hfree
      refine hl.deleted q (mem_view_plugins.mpr (.inl ⟨hq, writes_eq_false.mpr
        ⟨hdel, fun q' hq' hid => ?_⟩⟩))
      rcases hother q' hq' with hsame | hmem
      · exact hins r (by simp) (hsame.symm.trans hid)
      · exact hins q' (List.mem_append_left _ hmem) hid
    · rcases List.mem_append.mp hq with hq | hq
      · exact hl.deleted q (mem_view_plugins.mpr (.inr (hkept.subset hq)))
      · rw [List.mem_singleton.mp hq]
        exact hart.2

theorem Tx.Acts.locks (h : tx.Acts db others tx') (hdb : db.Valid issued)
    (hp : tx.Progress issued) (hl : tx.Locks db) : tx'.Locks db := by
  have hunique := view_unique hdb hl
  cases h with
  | delete hrest =>
    cases hp with
    | before plan rest_eq nothing picked =>
      obtain ⟨-, hins, hdel⟩ := nothing
      exact .of_nothing ⟨by simp [hins], hdel⟩
    | after sound installs =>
      exact False.elim (installs (.deletePlugins _) (hrest ▸ List.mem_cons_self ..))
  | @update id serverId artifactId rest p hrest free found =>
    have hview := List.mem_of_find?_eq_some found
    have hart : (db.findArtifact p.artifactId).isSome ∧ p.artifactId ∉ tx.deletedArtifacts := by
      refine ⟨?_, hl.deleted p hview⟩
      rcases mem_view_plugins.mp hview with ⟨hp, -⟩ | hp
      · exact hdb.references p hp
      · exact (hl.artifacts p hp).1
    -- the row keeps its id and its place
    have hrow : ∀ r ∈ db.plugins, (r.SamePlace p → r.id = p.id ∨ r.id ∈ tx.deleted) ∧
        (r.id = p.id → r.SamePlace p) := by
      intro r hr
      rcases mem_view_plugins.mp hview with ⟨hp, -⟩ | hp
      · refine ⟨fun hplace => .inl ?_, fun hid => ?_⟩
        · rw [eq_of_unique hdb.unique hr hp (.inr hplace)]
        · rw [eq_of_unique hdb.unique hr hp (.inl hid)]
          exact ⟨rfl, rfl⟩
      · exact ⟨hl.place p hp r hr, hl.row p hp r hr⟩
    refine hl.install List.filter_sublist (fun q hq => ?_) (fun q hq => ?_) hart
      (fun r hr => (hrow r hr).1) (fun r hr => (hrow r hr).2)
    · by_cases hid : q.id = p.id
      · exact .inl hid
      · exact .inr (List.mem_filter.mpr ⟨hq, decide_eq_true hid⟩)
    · obtain ⟨hq, hne⟩ := List.mem_filter.mp hq
      have hne : q.id ≠ p.id := of_decide_eq_true hne
      refine ⟨hne, fun hplace => hne ?_⟩
      rw [eq_of_unique hunique (mem_view_plugins.mpr (.inr hq)) hview (.inr hplace)]
  | @insert id serverId artifactId rest hrest free found row own artifact =>
    have hnone : ∀ p ∈ (tx.view db).plugins,
        ¬ (p.serverId = serverId ∧ p.artifactId = artifactId) := by
      intro p hp hplace
      exact List.find?_eq_none.mp found p hp (at_iff.mpr hplace)
    have hart : (db.findArtifact artifactId).isSome ∧ artifactId ∉ tx.deletedArtifacts := by
      rw [findArtifact_view] at artifact
      split_ifs at artifact with hmem
      · exact absurd rfl artifact
      · exact ⟨Option.isSome_iff_ne_none.mpr artifact, hmem⟩
    refine hl.install (List.Sublist.refl _) (fun q hq => .inr hq) (fun q hq => ?_) hart
      (fun p hp hplace => ?_) (fun p hp hid => absurd hid (row p hp))
    · exact ⟨own q hq, fun hplace => hnone q (mem_view_plugins.mpr (.inr hq)) hplace⟩
    · -- a row in the place is not seen, so the transaction has deleted it
      by_contra hkept
      push Not at hkept
      refine hnone p (mem_view_plugins.mpr (.inl ⟨hp, writes_eq_false.mpr
        ⟨hkept.2, fun r hr hid => ?_⟩⟩)) hplace
      have hr' := hl.row r hr p hp hid.symm
      exact hnone r (mem_view_plugins.mpr (.inr hr))
        ⟨hr'.1.symm.trans hplace.1, hr'.2.symm.trans hplace.2⟩
  | @deleteArtifact id rest hrest free unused =>
    refine ⟨hl.unique, fun q hq => ⟨(hl.artifacts q hq).1, fun hmem => ?_⟩, hl.place, hl.row,
      fun q hq hmem => ?_⟩
    · rcases List.mem_append.mp hmem with hmem | hmem
      · exact (hl.artifacts q hq).2 hmem
      · exact unused q (mem_view_plugins.mpr (.inr hq)) (List.mem_singleton.mp hmem)
    · rcases List.mem_append.mp hmem with hmem | hmem
      · exact hl.deleted q hq hmem
      · exact unused q hq (List.mem_singleton.mp hmem)

theorem progress_begin {statements : List Statement} (h : Planned issued statements) :
    ({ rest := statements } : Tx).Progress issued := by
  obtain ⟨w, serverId, ids, rest, rfl, plan⟩ := h
  exact .before plan rfl ⟨rfl, rfl, rfl⟩ nofun

theorem Tx.Progress.mono {issued' : Issued} (hsub : issued ⊆ issued')
    (h : tx.Progress issued) : tx.Progress issued' := by
  cases h with
  | before plan rest_eq nothing picked =>
    exact .before ⟨plan.sound.mono hsub, plan.installs, plan.all⟩ rest_eq nothing picked
  | after sound installs covered todo done =>
    exact .after (sound.mono hsub) installs covered todo done

/-- The rows a `DELETE` picks are those its condition covers. -/
theorem progress_look (h : tx.look db = some tx') (hp : tx.Progress issued) :
    tx'.Progress issued := by
  unfold Tx.look at h
  split at h
  · rename_i w rest hrest htargets
    cases h
    cases hp with
    | before plan rest_eq nothing picked =>
      obtain ⟨rfl, rfl⟩ : w = _ ∧ rest = _ := by simpa using hrest.symm.trans rest_eq
      refine .before plan rest_eq nothing ?_
      rintro targets ⟨⟩ y hy hcovers
      obtain ⟨p, hp, hpy⟩ := List.mem_filterMap.mp hy
      refine List.mem_map.mpr ⟨p, List.mem_filter.mpr ⟨hp, matches_of_covers hpy hcovers⟩, ?_⟩
      obtain ⟨a, -, rfl⟩ := installation_eq_some.mp hpy
      rfl
    | after sound installs =>
      exact False.elim (installs (.deletePlugins w) (hrest ▸ List.mem_cons_self ..))
  · cases h

theorem look_eq (h : tx.look db = some tx') :
    ∃ targets snapshot, tx' = { tx with targets, snapshot } := by
  unfold Tx.look at h
  split at h
  · cases h
    exact ⟨_, _, rfl⟩
  · cases h

/-- An upsert leaves a row of its place among those installed, and adds no other place. -/
theorem Tx.Acts.progress (h : tx.Acts db others tx') (hp : tx.Progress issued)
    (hunique : (tx.view db).plugins.Pairwise ServerPlugin.Separate) : tx'.Progress issued := by
  cases hp with
  | @before w serverId ids rest plan rest_eq nothing picked =>
    obtain ⟨hdel, hins, -⟩ := nothing
    cases h with
    | delete hrest htargets =>
      obtain ⟨rfl, rfl⟩ : _ = w ∧ _ = rest := by simpa using hrest.symm.trans rest_eq
      refine .after plan.sound plan.installs (fun y hy hcovers => ?_) (fun a ha => ?_) ?_
      · exact List.mem_append_right _ (picked _ htargets y hy hcovers)
      · exact .inl (plan.all a ha)
      · simp [hins]
    | update hrest => cases hrest.symm.trans rest_eq
    | insert hrest => cases hrest.symm.trans rest_eq
    | deleteArtifact hrest => cases hrest.symm.trans rest_eq
  | @after w serverId ids sound installs covered todo done =>
    have hinstall : ∀ {id s a : String} {rest : List Statement} {kept : List ServerPlugin}
        {r : ServerPlugin}, tx.rest = .upsertPlugin id s a :: rest → kept ⊆ tx.installed →
        (∀ q ∈ tx.installed, q ∈ kept ∨ q.SamePlace r) → r.serverId = s → r.artifactId = a →
        ({ tx with rest, installed := kept ++ [r] } : Tx).Progress issued := by
      intro id s a rest kept r hrest hkept hother hs ha
      have hhere : s = serverId ∧ a ∈ ids :=
        installs (.upsertPlugin id s a) (hrest ▸ List.mem_cons_self ..)
      refine .after sound (fun st hst => installs st (hrest ▸ List.mem_cons_of_mem _ hst)) covered
        (fun b hb => ?_) (List.forall_mem_append.mpr ⟨fun q hq => done q (hkept hq),
          List.forall_mem_singleton.mpr ⟨hs.trans hhere.1, ha ▸ hhere.2⟩⟩)
      rcases todo b hb with ⟨id', hid'⟩ | ⟨q, hq, hqs, hqa⟩
      · rw [hrest] at hid'
        rcases List.mem_cons.mp hid' with heq | hid'
        · cases heq
          exact .inr ⟨r, by simp, hs, ha⟩
        · exact .inl ⟨id', hid'⟩
      · rcases hother q hq with hmem | hplace
        · exact .inr ⟨q, List.mem_append_left _ hmem, hqs, hqa⟩
        · exact .inr ⟨r, by simp, hplace.1.symm.trans hqs, hplace.2.symm.trans hqa⟩
    cases h with
    | delete hrest =>
      exact False.elim (installs (.deletePlugins _) (hrest ▸ List.mem_cons_self ..))
    | @update id s a rest p hrest free found =>
      obtain ⟨hs, ha⟩ := at_iff.mp (List.find?_some found)
      refine hinstall hrest List.filter_sublist.subset (fun q hq => ?_) hs ha
      by_cases hqp : q.id = p.id
      · obtain rfl := eq_of_unique hunique (mem_view_plugins.mpr (.inr hq))
          (List.mem_of_find?_eq_some found) (.inl hqp)
        exact .inr ⟨rfl, rfl⟩
      · exact .inl (by simp [hq, hqp])
    | @insert id s a rest hrest =>
      exact hinstall hrest (List.Subset.refl _) (fun q hq => .inl hq) rfl rfl
    | deleteArtifact hrest =>
      refine .after sound (fun st hst => installs st (hrest ▸ List.mem_cons_of_mem _ hst)) covered
        (fun b hb => ?_) done
      refine (todo b hb).imp_left fun ⟨id', hid'⟩ => ?_
      rw [hrest] at hid'
      rcases List.mem_cons.mp hid' with heq | hid'
      · cases heq
      · exact ⟨id', hid'⟩

end Steps

/-! ## Changes from outside a transaction -/

/-- Plugin rows are only deleted, artifacts are kept with their projects. -/
structure Database.Below (db' db : Database) : Prop where
  plugins : db'.plugins.Sublist db.plugins
  artifacts : ∀ id a, db.findArtifact id = some a →
    ∃ a', db'.findArtifact id = some a' ∧ a'.project = a.project

section Below

variable {db db' : Database} {issued issued' : Issued} {tx : Tx}

theorem Database.Below.refl : db.Below db := ⟨.refl _, fun _ a ha => ⟨a, ha, rfl⟩⟩

theorem Database.Below.isSome (h : db'.Below db) {id : String}
    (hid : (db.findArtifact id).isSome) : (db'.findArtifact id).isSome := by
  obtain ⟨a, ha⟩ := Option.isSome_iff_exists.mp hid
  obtain ⟨a', ha', -⟩ := h.artifacts id a ha
  simp [ha']

theorem Database.Valid.below (h : db.Valid issued) (hbelow : db'.Below db)
    (hissued : ∀ a ∈ db'.artifacts, (a.id, a.project) ∈ issued') : db'.Valid issued' where
  unique := h.unique.sublist hbelow.plugins
  references p hp := hbelow.isSome (h.references p (hbelow.plugins.subset hp))
  issued := hissued

theorem Tx.Locks.below (h : tx.Locks db) (hbelow : db'.Below db) : tx.Locks db' where
  unique := h.unique
  artifacts q hq := ⟨hbelow.isSome (h.artifacts q hq).1, (h.artifacts q hq).2⟩
  place q hq p hp := h.place q hq p (hbelow.plugins.subset hp)
  row q hq p hp := h.row q hq p (hbelow.plugins.subset hp)
  deleted p hp := by
    refine h.deleted p (mem_view_plugins.mpr ((mem_view_plugins.mp hp).imp_left fun hp => ?_))
    exact ⟨hbelow.plugins.subset hp.1, hp.2⟩

theorem OneVersion.below (h : OneVersion db) (hdb : db.Valid issued) (hbelow : db'.Below db) :
    OneVersion db' := by
  intro p hp q hq a b ha hb hserver hproject
  have hp' := hbelow.plugins.subset hp
  have hq' := hbelow.plugins.subset hq
  obtain ⟨a₀, ha₀⟩ := Option.isSome_iff_exists.mp (hdb.references p hp')
  obtain ⟨b₀, hb₀⟩ := Option.isSome_iff_exists.mp (hdb.references q hq')
  obtain ⟨a₁, ha₁, hpa⟩ := hbelow.artifacts _ a₀ ha₀
  obtain ⟨b₁, hb₁, hpb⟩ := hbelow.artifacts _ b₀ hb₀
  obtain rfl : a = a₁ := Option.some.inj (ha.symm.trans ha₁)
  obtain rfl : b = b₁ := Option.some.inj (hb.symm.trans hb₁)
  exact h p hp' q hq' a₀ b₀ ha₀ hb₀ hserver (hpa.symm.trans (hproject.trans hpb))

theorem upsertArtifact_below {key : ArtifactKey} {update : ArtifactUpdate}
    {create a : PluginArtifact} (h : upsertArtifact key update create db = some (a, db')) :
    db'.Below db := by
  unfold upsertArtifact at h
  split at h
  · cases h
    refine ⟨.refl _, fun id a ha => ?_⟩
    have hid : ∀ b : PluginArtifact, (if b.key = key then b.update update else b).id = b.id := by
      intro b
      split_ifs <;> rfl
    refine ⟨if a.key = key then a.update update else a, ?_, ?_⟩
    · rw [Database.findArtifact, List.find?_map]
      simp only [Function.comp_def, hid]
      exact congrArg (Option.map _) ha
    · split_ifs <;> rfl
  · split_ifs at h
    cases h
    refine ⟨.refl _, fun id a ha => ⟨a, ?_, rfl⟩⟩
    rw [Database.findArtifact, List.find?_append]
    exact (congrArg (Option.or · _) ha).trans rfl

/-- What a query outside of transactions does to the database. -/
theorem perform_below {web : String → Option Bytes} {c : Request} {s : State}
    (hc : ∀ statements, c ≠ .transaction statements)
    (hissued : ∀ a ∈ s.db.artifacts, (a.id, a.project) ∈ issued) :
    (perform web c s).2.db.Below s.db ∧
      ∀ a ∈ (perform web c s).2.db.artifacts, (a.id, a.project) ∈ issued ++ System.created c := by
  have hold : ∀ a ∈ s.db.artifacts, (a.id, a.project) ∈ issued ++ System.created c :=
    fun a ha => List.mem_append_left _ (hissued a ha)
  cases c with
  | transaction statements => exact absurd rfl (hc statements)
  | deletePlugins w => exact ⟨⟨List.filter_sublist, fun _ a ha => ⟨a, ha, rfl⟩⟩, hold⟩
  | upsertArtifact key update create =>
    rw [perform]
    cases hup : upsertArtifact key update create s.db with
    | none => exact ⟨.refl, hold⟩
    | some r =>
      obtain ⟨a, db⟩ := r
      refine ⟨upsertArtifact_below hup, fun b hb => ?_⟩
      rcases mem_upsertArtifact hup hb with hb | rfl | ⟨b', hb', -, rfl⟩
      · exact hold b hb
      · exact List.mem_append_right _ (List.mem_singleton_self _)
      · exact hold b' hb'
  | putObject key body =>
    rw [perform]
    cases s.bucket <;> exact ⟨.refl, hold⟩
  | deleteObject key =>
    rw [perform]
    cases s.bucket <;> exact ⟨.refl, hold⟩
  | getObject key =>
    rw [perform]
    cases s.object key <;> exact ⟨.refl, hold⟩
  | _ => exact ⟨.refl, hold⟩

theorem answer_below {web : String → Option Bytes} {fates : Request → Fate} {c : Request}
    {s : State} (hc : ∀ statements, c ≠ .transaction statements)
    (hissued : ∀ a ∈ s.db.artifacts, (a.id, a.project) ∈ issued) :
    (answer web fates c s).2.db.Below s.db ∧
      ∀ a ∈ (answer web fates c s).2.db.artifacts,
        (a.id, a.project) ∈ issued ++ System.created c := by
  have hperform := @perform_below _ web _ _ hc hissued
  unfold answer
  cases fates c with
  | answered => exact hperform
  | lost => exact hperform
  | failed => exact ⟨.refl, fun a ha => List.mem_append_left _ (hissued a ha)⟩

/-- The answer to a query is one the ids decide. -/
theorem answers_answer {web : String → Option Bytes} {fates : Request → Fate} {c : Request}
    {s : State} (hissued : ∀ a ∈ s.db.artifacts, (a.id, a.project) ∈ issued) :
    Answers c issued (answer web fates c s).1 (issued ++ System.created c) := by
  cases c with
  | findArtifact id =>
    refine ⟨List.subset_append_left _ _, fun a ha => ?_⟩
    have hfind : s.db.findArtifact id = some a := by
      cases hf : fates (.findArtifact id) <;> simp [answer, hf, perform] at ha
      exact ha
    obtain ⟨hmem, hid⟩ := Database.mem_of_findArtifact hfind
    exact ⟨hid, List.mem_append_left _ (hissued a hmem)⟩
  | _ => exact List.subset_append_left _ _

end Below

/-! ## Commits -/

section Commit

variable {db : Database} {issued : Issued} {tx o : Tx}

theorem Tx.Apart.symm (h : tx.Apart o) : o.Apart tx :=
  ⟨fun q hq r hr => Std.Symm.symm _ _ (h.rows r hr q hq), h.right, h.left⟩

/-- The artifact of a row that stays is not deleted. -/
theorem findArtifact_commit (hl : tx.Locks db) {p : ServerPlugin}
    (hp : p ∈ (tx.view db).plugins) :
    (tx.view db).findArtifact p.artifactId = db.findArtifact p.artifactId := by
  rw [findArtifact_view, if_neg (hl.deleted p hp)]

theorem commit_valid (hdb : db.Valid issued) (hl : tx.Locks db) :
    (tx.view db).Valid issued where
  unique := view_unique hdb hl
  references p hp := by
    rw [findArtifact_commit hl hp]
    rcases mem_view_plugins.mp hp with ⟨hp, -⟩ | hp
    · exact hdb.references p hp
    · exact (hl.artifacts p hp).1
  issued a ha := hdb.issued a (List.mem_filter.mp ha).1

theorem commit_locks (hapart : tx.Apart o) (ho : o.Locks db) :
    o.Locks (tx.view db) where
  unique := ho.unique
  artifacts q hq := by
    rw [findArtifact_view, if_neg (hapart.right q hq)]
    exact ho.artifacts q hq
  place q hq p hp hplace := by
    rcases mem_view_plugins.mp hp with ⟨hp, -⟩ | hp
    · exact ho.place q hq p hp hplace
    · exact absurd hplace (hapart.rows p hp q hq).2
  row q hq p hp hid := by
    rcases mem_view_plugins.mp hp with ⟨hp, -⟩ | hp
    · exact ho.row q hq p hp hid
    · exact absurd hid (hapart.rows p hp q hq).1
  deleted p hp := by
    rcases mem_view_plugins.mp hp with ⟨hp, hfree⟩ | hp
    · rcases mem_view_plugins.mp hp with ⟨hp, -⟩ | hp
      · exact ho.deleted p (mem_view_plugins.mpr (.inl ⟨hp, hfree⟩))
      · exact hapart.left p hp
    · exact ho.deleted p (mem_view_plugins.mpr (.inr hp))

/-- Another version that was there when the deletion picked its rows has been deleted. -/
theorem not_kept (hfun : Functional issued) (hdb : db.Valid issued) (hl : tx.Locks db)
    (hp : tx.Progress issued) (hrest : tx.rest = []) {p q : ServerPlugin} {a b : PluginArtifact}
    (hpm : p ∈ db.plugins) (hfree : tx.writes p.id = false) (hq : q ∈ tx.installed)
    (hb : db.findArtifact q.artifactId = some b)
    (hserver : p.serverId = q.serverId) (hproject : a.project = b.project)
    (hseen : p.artifactId ≠ q.artifactId →
      ⟨p.id, p.serverId, p.artifactId, a.project⟩ ∈ tx.snapshot) : False := by
  obtain ⟨hkept, hown⟩ := writes_eq_false.mp hfree
  have hplace : ∀ r ∈ tx.installed, ¬ p.SamePlace r := fun r hr hsame =>
    (hl.place r hr p hpm hsame).elim (fun hid => hown r hr hid.symm) hkept
  have hne : p.artifactId ≠ q.artifactId := fun heq => hplace q hq ⟨hserver, heq⟩
  cases hp with
  | before plan rest_eq => cases hrest.symm.trans rest_eq
  | @after w serverId ids sound installs covered todo done =>
    obtain ⟨hqs, hqa⟩ := done q hq
    by_cases hin : p.artifactId ∈ ids
    · -- the transaction installs this version too, in the place of the row
      rcases todo _ hin with ⟨id, hid⟩ | ⟨r, hr, hrs, hra⟩
      · rw [hrest] at hid
        cases hid
      · exact hplace r hr ⟨hserver.trans (hqs.trans hrs.symm), hra.symm⟩
    · refine hkept (covered _ (hseen hne) ?_)
      rcases sound with sound | sound | ⟨artifact, rfl, rfl, hissued⟩
      · exact sound _ (hserver.trans hqs) hin
      · rw [sound] at hqa
        cases hqa
      · obtain ⟨hbm, hbid⟩ := Database.mem_of_findArtifact hb
        have hqid : q.artifactId = artifact.id := List.mem_singleton.mp hqa
        have hfix : b.project = artifact.project :=
          hfun _ (hdb.issued b hbm) _ hissued (hbid.trans hqid)
        exact ⟨hserver.trans hqs, hproject.trans hfix, fun h => hne (h.trans hqid.symm)⟩

theorem commit_oneVersion (hfun : Functional issued) (hdb : db.Valid issued)
    (hl : tx.Locks db) (hp : tx.Progress issued) (hrest : tx.rest = []) (h : OneVersion db)
    (hex : tx.Exclusive db) : OneVersion (tx.view db) := by
  have hinstallation : ∀ {p : ServerPlugin} {a : PluginArtifact},
      db.findArtifact p.artifactId = some a →
        db.installation p = some ⟨p.id, p.serverId, p.artifactId, a.project⟩ :=
    fun ha => installation_eq_some.mpr ⟨_, ha, rfl⟩
  -- a row that stays beside a row that is installed
  have hcross : ∀ {p q a b}, p ∈ db.plugins → tx.writes p.id = false → q ∈ tx.installed →
      db.findArtifact p.artifactId = some a → db.findArtifact q.artifactId = some b →
      p.serverId = q.serverId → a.project = b.project → False := by
    intro p q a b hpm hfree hq ha hb hserver hproject
    refine not_kept hfun hdb hl hp hrest hpm hfree hq hb hserver hproject fun hne => ?_
    exact hex.seen _ (List.mem_filterMap.mpr ⟨q, hq, hinstallation hb⟩) _
      (List.mem_filterMap.mpr ⟨p, hpm, hinstallation ha⟩) ⟨hserver.symm, hproject.symm⟩ hne.symm
  intro p hpv q hqv a b ha hb hserver hproject
  rw [findArtifact_commit hl hpv] at ha
  rw [findArtifact_commit hl hqv] at hb
  rcases mem_view_plugins.mp hpv with ⟨hpm, hpf⟩ | hpi <;>
    rcases mem_view_plugins.mp hqv with ⟨hqm, hqf⟩ | hqi
  · exact h p hpm q hqm a b ha hb hserver hproject
  · exact (hcross hpm hpf hqi ha hb hserver hproject).elim
  · exact (hcross hqm hqf hpi hb ha hserver.symm hproject.symm).elim
  · have hsame := hex.versions _ (List.mem_filterMap.mpr ⟨p, hpi, hinstallation ha⟩)
      _ (List.mem_filterMap.mpr ⟨q, hqi, hinstallation hb⟩) ⟨hserver, hproject⟩
    exact eq_of_unique hl.unique hpi hqi (.inr ⟨hserver, hsame⟩)

end Commit

/-! ## Whole runs -/

structure Session.Good (db : Database) (issued : Issued) (session : Session) : Prop where
  running : ∀ code, session = .running code → Plans code issued
  progress : ∀ tx, session.tx? = some tx → tx.Progress issued
  locks : ∀ tx, session.tx? = some tx → tx.Locks db
  after : ∀ tx k, session = .transacting tx k → ∀ r, Plans (k r) issued

structure System.Inv (x : System) : Prop where
  valid : x.state.db.Valid x.issued
  functional : Functional x.issued
  oneVersion : OneVersion x.state.db
  sessions : ∀ session ∈ x.sessions, session.Good x.state.db x.issued
  apart : ∀ i j tx o, x.tx? i = some tx → x.tx? j = some o → i ≠ j → tx.Apart o

theorem Plans.mono {code : Code} {issued issued' : Issued} (h : Plans code issued)
    (hsub : issued ⊆ issued') : Plans code issued' := wp_rely h hsub

theorem good_running {db : Database} {issued : Issued} {code : Code} (h : Plans code issued) :
    (Session.running code).Good db issued where
  running := by rintro _ ⟨⟩; exact h
  progress := nofun
  locks := nofun
  after := nofun

theorem mem_others {x : System} {i : Nat} {o : Tx} :
    o ∈ x.others i ↔ ∃ j, j ≠ i ∧ x.tx? j = some o := by
  simp only [System.others, List.mem_filterMap, List.mem_range]
  constructor
  · rintro ⟨j, -, hj⟩
    split_ifs at hj with hji
    exact ⟨j, hji, hj⟩
  · rintro ⟨j, hji, hj⟩
    refine ⟨j, ?_, by rw [if_neg hji, hj]⟩
    obtain ⟨session, hs, -⟩ := Option.bind_eq_some_iff.mp hj
    exact (List.getElem?_eq_some_iff.mp hs).1

theorem tx?_setSession {x : System} {i j : Nat} {session : Session} {tx : Tx}
    (h : (x.setSession i session).tx? j = some tx) :
    (j = i ∧ session.tx? = some tx) ∨ (j ≠ i ∧ x.tx? j = some tx) := by
  simp only [System.tx?, System.setSession, List.getElem?_set] at h
  split_ifs at h with hij hlen
  · exact .inl ⟨hij.symm, h⟩
  · cases h
  · exact .inr ⟨Ne.symm hij, h⟩

section Step

variable {x y : System} {i : Nat} {session : Session} {state : State} {issued : Issued}

/-- A step of one session, with what it does to the database. -/
theorem System.Inv.update (h : x.Inv) (hvalid : state.db.Valid issued)
    (hfun : Functional issued) (hone : OneVersion state.db) (hsub : x.issued ⊆ issued)
    (hlocks : ∀ j tx, j ≠ i → x.tx? j = some tx → tx.Locks x.state.db → tx.Locks state.db)
    (hgood : session.Good state.db issued)
    (hapart : ∀ tx, session.tx? = some tx → ∀ j o, j ≠ i → x.tx? j = some o → tx.Apart o) :
    ({ x.setSession i session with state, issued } : System).Inv where
  valid := hvalid
  functional := hfun
  oneVersion := hone
  sessions := by
    intro s hs
    obtain ⟨j, hj⟩ := List.mem_iff_getElem?.mp hs
    simp only [System.setSession, List.getElem?_set] at hj
    split_ifs at hj with hij hlen
    · exact Option.some.inj hj ▸ hgood
    · have hold := h.sessions s (List.mem_of_getElem? hj)
      refine ⟨fun code hc => (hold.running code hc).mono hsub,
        fun tx ht => (hold.progress tx ht).mono hsub, fun tx ht => ?_,
        fun tx k hk r => (hold.after tx k hk r).mono hsub⟩
      exact hlocks j tx (Ne.symm hij) (by rw [System.tx?, hj]; exact ht) (hold.locks tx ht)
  apart := by
    intro j k tx o hj hk hjk
    rcases tx?_setSession hj with ⟨rfl, hj'⟩ | ⟨hji, hj'⟩ <;>
      rcases tx?_setSession hk with ⟨rfl, hk'⟩ | ⟨hki, hk'⟩
    · exact absurd rfl hjk
    · exact hapart tx hj' k o hki hk'
    · exact (hapart o hk' j tx hji hj').symm
    · exact h.apart j k tx o hj' hk' hjk

/-- A step that leaves the database alone. -/
theorem System.Inv.setSession (h : x.Inv) (hgood : session.Good x.state.db x.issued)
    (hapart : ∀ tx, session.tx? = some tx → ∀ j o, j ≠ i → x.tx? j = some o → tx.Apart o) :
    (x.setSession i session).Inv :=
  h.update h.valid h.functional h.oneVersion (List.Subset.refl _) (fun _ _ _ _ hl => hl) hgood
    hapart

theorem System.Inv.good (h : x.Inv) (hs : x.sessions[i]? = some session) :
    session.Good x.state.db x.issued := h.sessions session (List.mem_of_getElem? hs)

theorem System.Inv.start (h : x.Inv) {code : Code} (hcode : Plans code x.issued) :
    ({ x with sessions := x.sessions ++ [.running code] } : System).Inv := by
  have htx : ∀ j tx, ({ x with sessions := x.sessions ++ [.running code] } : System).tx? j =
      some tx → x.tx? j = some tx := by
    intro j tx hj
    obtain ⟨session, hs, ht⟩ := Option.bind_eq_some_iff.mp hj
    rw [List.getElem?_append] at hs
    split_ifs at hs with hlt
    · exact Option.bind_eq_some_iff.mpr ⟨session, hs, ht⟩
    · obtain rfl := List.mem_singleton.mp (List.mem_of_getElem? hs)
      cases ht
  refine ⟨h.valid, h.functional, h.oneVersion, fun session hs => ?_,
    fun j k tx o hj hk => h.apart j k tx o (htx j tx hj) (htx k o hk)⟩
  rcases List.mem_append.mp hs with hs | hs
  · exact h.sessions session hs
  · obtain rfl := List.mem_singleton.mp hs
    exact good_running hcode

theorem functional_created {c : Request} (h : Functional x.issued) (hc : x.fresh c) :
    Functional (x.issued ++ System.created c) := by
  have hnew : ∀ e ∈ x.issued, ∀ e' ∈ System.created c, e.1 ≠ e'.1 := by
    intro e he e' he'
    have := List.all_eq_true.mp (List.all_eq_true.mp hc e' he') e he
    simpa using this
  have hone : ∀ e ∈ System.created c, ∀ e' ∈ System.created c, e = e' := by
    cases c <;> simp [System.created]
  intro e he e' he' hid
  rcases List.mem_append.mp he with he | he <;> rcases List.mem_append.mp he' with he' | he'
  · exact h e he e' he' hid
  · exact absurd hid (hnew e he e' he')
  · exact absurd hid.symm (hnew e' he' e he)
  · rw [hone e he e' he']

/-- A query outside of transactions. -/
theorem System.Inv.ask (h : x.Inv) {web : String → Option Bytes} {fate : Fate} {c : Request}
    {k : Settled Error Answer c → Code} (hs : x.sessions[i]? = some (.running (.call c k)))
    (hc : ∀ statements, c ≠ .transaction statements) (hfresh : x.fresh c) :
    ({ x.setSession i (.running (k (answer web (fun _ => fate) c x.state).1)) with
      state := (answer web (fun _ => fate) c x.state).2
      issued := x.issued ++ System.created c } : System).Inv := by
  obtain ⟨hbelow, hissued⟩ := @answer_below _ web (fun _ => fate) _ _ hc h.valid.issued
  have hplans := (h.good hs).running _ rfl
  refine h.update (h.valid.below hbelow hissued) (functional_created h.functional hfresh)
    (h.oneVersion.below h.valid hbelow) (List.subset_append_left _ _)
    (fun _ _ _ _ hl => hl.below hbelow) (good_running ?_) nofun
  exact (hplans _ (List.Subset.refl _) _ _ (answers_answer h.valid.issued)).2

theorem System.Inv.begin (h : x.Inv) {statements : List Statement}
    {k : Settled Error Answer (.transaction statements) → Code}
    (hs : x.sessions[i]? = some (.running (.call (.transaction statements) k))) :
    (x.setSession i (.transacting { rest := statements } k)).Inv := by
  have hplans := (h.good hs).running _ rfl
  have hstep := fun r => hplans x.issued (List.Subset.refl _) r x.issued (List.Subset.refl _)
  refine h.setSession ⟨nofun, ?_, ?_, ?_⟩ ?_
  · rintro tx ⟨⟩
    exact progress_begin ((hstep (.ok ())).1.2 statements rfl)
  · rintro tx ⟨⟩
    exact .of_nothing ⟨rfl, rfl⟩
  · rintro tx k' ⟨⟩ r
    exact (hstep r).2
  · rintro tx ⟨⟩ j o - -
    exact ⟨by simp, by simp, by simp⟩

/-- A step of a transaction that stays open. -/
theorem System.Inv.continue (h : x.Inv) {tx tx' : Tx} {k : Except Error Unit → Code}
    (hs : x.sessions[i]? = some (.transacting tx k)) (hprogress : tx'.Progress x.issued)
    (hlocks : tx'.Locks x.state.db)
    (hapart : ∀ o ∈ x.others i, tx.Apart o → tx'.Apart o) :
    (x.setSession i (.transacting tx' k)).Inv := by
  have hgood := h.good hs
  refine h.setSession ⟨nofun, ?_, ?_, ?_⟩ ?_
  · rintro _ ⟨⟩
    exact hprogress
  · rintro _ ⟨⟩
    exact hlocks
  · rintro _ _ ⟨⟩
    exact hgood.after tx k rfl
  · rintro _ ⟨⟩ j o hji hj
    exact hapart o (mem_others.mpr ⟨j, hji, hj⟩)
      (h.apart i j tx o (by rw [System.tx?, hs]; rfl) hj hji.symm)

theorem System.Inv.commit (h : x.Inv) {tx : Tx} {k : Except Error Unit → Code}
    (hs : x.sessions[i]? = some (.transacting tx k)) (hrest : tx.rest = [])
    (hex : tx.Exclusive x.state.db) (r : Except Error Unit) :
    ({ x.setSession i (.running (k r)) with
      state := { x.state with db := tx.view x.state.db } } : System).Inv := by
  have hgood := h.good hs
  have hl := hgood.locks tx rfl
  have htx : x.tx? i = some tx := by rw [System.tx?, hs]; rfl
  refine h.update (commit_valid h.valid hl) h.functional
    (commit_oneVersion h.functional h.valid hl (hgood.progress tx rfl) hrest h.oneVersion hex)
    (List.Subset.refl _) (fun j o hji hj ho => commit_locks ?_ ho)
    (good_running (hgood.after tx k rfl r)) nofun
  exact h.apart i j tx o htx hj hji.symm

/-- Every step keeps the invariant, if what it commits is exclusive. -/
theorem next_inv {parseUrl : String → Option Url} {l : Label} (h : x.Inv)
    (hex : CommitsExclusive x l) (hy : x.next parseUrl l = some y) : y.Inv := by
  cases l with
  | start call =>
    cases hy
    exact h.start (plans_code parseUrl call x.issued)
  | turn i left =>
    simp only [System.next] at hy
    split at hy
    · rename_i p q hs
      cases hy
      have hplans := (h.good hs).running _ rfl
      refine h.setSession (good_running ?_) nofun
      cases left
      · exact hplans.2
      · exact hplans.1
    · cases hy
  | ask i fate web =>
    simp only [System.next] at hy
    split at hy
    · rename_i statements k hs
      cases hy
      exact h.begin hs
    · rename_i c k hc hs
      split_ifs at hy with hblocked
      cases hy
      push Not at hblocked
      refine h.ask hs (fun statements heq => ?_) hblocked.2
      subst heq
      exact hc statements k rfl HEq.rfl
    · cases hy
  | look i =>
    simp only [System.next] at hy
    split at hy
    · rename_i tx k hs
      obtain ⟨tx', hlook, rfl⟩ := Option.map_eq_some_iff.mp hy
      have hgood := h.good hs
      have hl := hgood.locks tx rfl
      have hprogress := progress_look hlook (hgood.progress tx rfl)
      obtain ⟨targets, snapshot, rfl⟩ := look_eq hlook
      exact h.continue hs hprogress ⟨hl.unique, hl.artifacts, hl.place, hl.row, hl.deleted⟩
        fun o _ ho => ⟨ho.rows, ho.left, ho.right⟩
    · cases hy
  | act i =>
    simp only [System.next] at hy
    split at hy
    · rename_i tx k hs
      obtain ⟨tx', hact, rfl⟩ := Option.map_eq_some_iff.mp hy
      have hgood := h.good hs
      have hacts := acts_of_act hact
      have hl := hgood.locks tx rfl
      exact h.continue hs (hacts.progress (hgood.progress tx rfl) (view_unique h.valid hl))
        (hacts.locks h.valid (hgood.progress tx rfl) hl) fun o ho => hacts.apart ho
    · cases hy
  | commit i answered =>
    simp only [System.next] at hy
    split at hy
    · rename_i tx k hs
      by_cases hrest : tx.rest = []
      · rw [if_pos hrest] at hy
        cases hy
        exact h.commit hs hrest (hex tx (by rw [System.tx?, hs]; rfl)) _
      · rw [if_neg hrest] at hy
        cases hy
    · cases hy
  | abort i =>
    simp only [System.next] at hy
    split at hy
    · rename_i tx k hs
      cases hy
      exact h.setSession (good_running ((h.good hs).after tx k rfl _)) nofun
    · cases hy

end Step

/-- A database that meets its constraints, before any call. -/
structure System.Initial (x : System) : Prop where
  valid : x.state.db.Valid x.issued
  functional : Functional x.issued
  oneVersion : OneVersion x.state.db
  idle : x.sessions = []

theorem System.Initial.inv {x : System} (h : x.Initial) : x.Inv where
  valid := h.valid
  functional := h.functional
  oneVersion := h.oneVersion
  sessions session hs := by
    rw [h.idle] at hs
    cases hs
  apart i j tx o hi := by
    simp [System.tx?, h.idle] at hi

/-- In every state of a run whose commits are exclusive, no server has two versions. -/
theorem oneVersion_of_exclusive (parseUrl : String → Option Url) {x y : System}
    (hx : x.Initial) (run : Runs (System.next parseUrl) CommitsExclusive x y) :
    OneVersion y.state.db :=
  (run.invariant (fun _ _ _ h hex hy => next_inv h hex hy) hx.inv).oneVersion

def pluginVersion (id : String) : PluginArtifact where
  id := id
  provider := .modrinth
  providerProjectId := "project"
  providerVersionId := id
  name := "plugin"
  version := id
  platform := "SERVER"
  minecraftVersions := []
  filename := "plugin.jar"
  size := 1
  sha256 := id
  downloadToken := id

/-- Two artifacts of one project, and a server. -/
def twoVersions : System where
  state := { db := { servers := ["lobby"], artifacts := ["a", "b"].map pluginVersion } }
  issued := [("a", (.modrinth, "project")), ("b", (.modrinth, "project"))]

theorem twoVersions_initial : twoVersions.Initial where
  valid := ⟨.nil, nofun, by decide⟩
  functional := by unfold Functional; decide
  oneVersion := nofun
  idle := rfl

/-- The requests of one reconciliation, from its start to its commit. -/
def reconcileBoth : List Label := [
  .start (.reconcile id "lobby" ["a", "b"]), .ask 0 .answered fun _ => none,
  .ask 0 .answered fun _ => none, .ask 0 .answered fun _ => none, .look 0, .act 0, .act 0,
  .act 0, .commit 0 true]

/-- Two deployments, each of which picks the rows to delete before the other commits. -/
def deployBoth : List Label := [
  .start (.deploy "1" "lobby" "a"), .start (.deploy "2" "lobby" "b"),
  .turn 0 true, .turn 1 true, .ask 0 .answered fun _ => none, .ask 0 .answered fun _ => none,
  .ask 1 .answered fun _ => none, .ask 1 .answered fun _ => none,
  .ask 0 .answered fun _ => none, .ask 1 .answered fun _ => none,
  .look 0, .act 0, .look 1, .act 1, .act 0, .act 1, .commit 0 true, .commit 1 true]

/-- Every call has returned. -/
def System.completed (x : System) : Bool :=
  x.sessions.all fun session => match session with
    | .running (.pure _) => true
    | _ => false

theorem both_installed : ∀ labels ∈ [reconcileBoth, deployBoth], ∃ y p q,
    runLabels (System.next fun _ => none) twoVersions labels = some y ∧ y.completed ∧
      y.state.db.artifacts = twoVersions.state.db.artifacts ∧ y.state.db.plugins = [p, q] ∧
      p = ⟨p.id, "lobby", "a", true⟩ ∧ q = ⟨q.id, "lobby", "b", true⟩ := by
  intro labels hl
  simp only [List.mem_cons, List.not_mem_nil, or_false] at hl
  rcases hl with rfl | rfl
  · exact ⟨_, _, _, rfl, rfl, rfl, rfl, rfl, rfl⟩
  · exact ⟨_, _, _, rfl, rfl, rfl, rfl, rfl, rfl⟩

theorem exists_two_versions {labels : List Label} (hl : labels ∈ [reconcileBoth, deployBoth]) :
    ∃ y, runLabels (System.next fun _ => none) twoVersions labels = some y ∧
      Runs (System.next fun _ => none) Anything twoVersions y ∧ y.completed ∧
      ¬ OneVersion y.state.db := by
  obtain ⟨y, p, q, hrun, hdone, hartifacts, hplugins, hp, hq⟩ := both_installed labels hl
  refine ⟨y, hrun, runs_of_labels (fun _ _ _ => trivial) hrun, hdone, fun h => ?_⟩
  have hfind : ∀ id, y.state.db.findArtifact id = twoVersions.state.db.findArtifact id := by
    intro id
    rw [Database.findArtifact, hartifacts]
    rfl
  have heq : p = q := h p (by simp [hplugins]) q (by simp [hplugins])
    (pluginVersion "a") (pluginVersion "b")
    ((hfind _).trans (by rw [hp]; rfl)) ((hfind _).trans (by rw [hq]; rfl))
    (by rw [hp, hq]) rfl
  rw [hp, hq] at heq
  simp at heq

/-- One reconciliation, or two deployments at once, end with both versions installed. -/
theorem not_oneVersion :
    (∃ y, runLabels (System.next fun _ => none) twoVersions reconcileBoth = some y ∧
      Runs (System.next fun _ => none) Anything twoVersions y ∧ y.completed ∧
      ¬ OneVersion y.state.db) ∧
    ∃ y, runLabels (System.next fun _ => none) twoVersions deployBoth = some y ∧
      Runs (System.next fun _ => none) Anything twoVersions y ∧ y.completed ∧
      ¬ OneVersion y.state.db :=
  ⟨exists_two_versions (by simp), exists_two_versions (by simp)⟩

instance (i j : Installation) : Decidable (i.SameProject j) := by
  unfold Installation.SameProject
  infer_instance

instance (db : Database) (tx : Tx) : Decidable (tx.Exclusive db) :=
  decidable_of_iff
    ((∀ x ∈ tx.installed.filterMap db.installation,
      ∀ y ∈ tx.installed.filterMap db.installation, x.SameProject y →
        x.artifactId = y.artifactId) ∧
      ∀ x ∈ tx.installed.filterMap db.installation, ∀ y ∈ db.installations,
        x.SameProject y → x.artifactId ≠ y.artifactId → y ∈ tx.snapshot)
    ⟨fun h => ⟨h.1, h.2⟩, fun h => ⟨h.versions, h.seen⟩⟩

instance (x : System) (l : Label) : Decidable (CommitsExclusive x l) := by
  unfold CommitsExclusive
  split <;> infer_instance

/-- One version is deployed, and when that is done the other one. -/
def deployInTurn : List Label :=
  let deployment (i : Nat) (id artifactId : String) : List Label := [
    .start (.deploy id "lobby" artifactId), .turn i true, .ask i .answered fun _ => none,
    .ask i .answered fun _ => none, .ask i .answered fun _ => none, .look i, .act i, .act i,
    .commit i true]
  deployment 0 "1" "a" ++ deployment 1 "2" "b"

theorem oneVersion_deployInTurn : ∃ y : System,
    y.state.db.plugins.map (·.artifactId) = ["b"] ∧ OneVersion y.state.db := by
  have hview : (runChecked (fun x l => decide (CommitsExclusive x l))
      (System.next fun _ => none) twoVersions deployInTurn).any
        (fun y => y.completed ∧ y.state.db.plugins.map (·.artifactId) = ["b"]) = true := by
    decide +kernel
  rw [Option.any_eq_true] at hview
  obtain ⟨y, hrun, hview⟩ := hview
  obtain ⟨-, hplugins⟩ := of_decide_eq_true hview
  have run := runs_of_checked (fun _ _ h => of_decide_eq_true h) hrun
  exact ⟨y, hplugins, oneVersion_of_exclusive (fun _ => none) twoVersions_initial run⟩

end Minikura.Registry
