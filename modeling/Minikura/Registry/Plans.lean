import Minikura.Concurrency.Observation
import Minikura.Registry.Transactions

/-!
# The transactions of the service

Every transaction a call begins deletes plugin rows first and then installs artifacts
on one server, all of which are spared by the deletion or are the only ones it leaves.
This is shown of the code of each call, in any state and among any other calls: the
project of an artifact is fixed once its id is issued.

## Main definitions

* `PluginWhere.Covers` — the installations a condition deletes.
* `Planned` — the statements of a transaction are a deletion and what it makes room for.

## Main results

* `plans_code` — every call begins planned transactions only.
-/

namespace Minikura.Registry
open Concurrency

abbrev Issued := List (String × (PluginProvider × String))

/-! ## Which rows a condition deletes -/

def PluginWhere.Covers : PluginWhere → Installation → Prop
  | .otherVersions serverId artifact, y =>
    y.serverId = serverId ∧ y.project = artifact.project ∧ y.artifactId ≠ artifact.id
  | .notIn serverId artifactIds, y => y.serverId = serverId ∧ y.artifactId ∉ artifactIds
  | .ofArtifact artifactId, y => y.artifactId = artifactId
  | .installation id serverId, y => y.id = id ∧ y.serverId = serverId

theorem installation_eq_some {db : Database} {p : ServerPlugin} {y : Installation} :
    db.installation p = some y ↔ ∃ a, db.findArtifact p.artifactId = some a ∧
      y = ⟨p.id, p.serverId, p.artifactId, a.project⟩ := by
  rw [Database.installation, Option.map_eq_some_iff]
  exact exists_congr fun a => and_congr_right fun _ => eq_comm

theorem matches_of_covers {db : Database} {w : PluginWhere} {p : ServerPlugin}
    {y : Installation} (hy : db.installation p = some y) (hw : w.Covers y) :
    w.matches db p := by
  obtain ⟨a, ha, rfl⟩ := installation_eq_some.mp hy
  have hid : a.id = p.artifactId := (Database.mem_of_findArtifact ha).2
  cases w with
  | otherVersions serverId artifact =>
    obtain ⟨hs, hproject, hne⟩ := hw
    simp_all [PluginWhere.matches]
  | notIn serverId ids =>
    obtain ⟨hs, hne⟩ := hw
    simp_all [PluginWhere.matches]
  | ofArtifact id => simpa [PluginWhere.matches, PluginWhere.Covers] using hw
  | installation id serverId => simpa [PluginWhere.matches, PluginWhere.Covers] using hw

/-! ## What a transaction sets out to do -/

/-- The deletion leaves no other version of what is installed, save what is installed too. -/
def Sound (issued : Issued) (w : PluginWhere) (serverId : String) (ids : List String) : Prop :=
  (∀ y : Installation, y.serverId = serverId → y.artifactId ∉ ids → w.Covers y) ∨
    ids = [] ∨ ∃ artifact, w = .otherVersions serverId artifact ∧ ids = [artifact.id] ∧
      (artifact.id, artifact.project) ∈ issued

/-- The statements after the deletion. -/
def Statement.Installs (serverId : String) (ids : List String) : Statement → Prop
  | .deletePlugins _ => False
  | .upsertPlugin _ s a => s = serverId ∧ a ∈ ids
  | .deleteArtifact _ => True

structure Plan (issued : Issued) (w : PluginWhere) (serverId : String) (ids : List String)
    (rest : List Statement) : Prop where
  sound : Sound issued w serverId ids
  installs : ∀ s ∈ rest, s.Installs serverId ids
  all : ∀ a ∈ ids, ∃ id, Statement.upsertPlugin id serverId a ∈ rest

def Planned (issued : Issued) (statements : List Statement) : Prop :=
  ∃ w serverId ids rest, statements = .deletePlugins w :: rest ∧
    Plan issued w serverId ids rest

theorem Sound.mono {issued issued' : Issued} {w : PluginWhere} {serverId : String}
    {ids : List String} (h : issued ⊆ issued') (hs : Sound issued w serverId ids) :
    Sound issued' w serverId ids := by
  rcases hs with hs | hs | ⟨artifact, hw, hids, hmem⟩
  · exact .inl hs
  · exact .inr (.inl hs)
  · exact .inr (.inr ⟨artifact, hw, hids, h hmem⟩)

theorem planned_deploy {issued : Issued} (id serverId : String) {artifact : PluginArtifact}
    (h : (artifact.id, artifact.project) ∈ issued) :
    Planned issued [.deletePlugins (.otherVersions serverId artifact),
      .upsertPlugin id serverId artifact.id] := by
  refine ⟨_, serverId, [artifact.id], _, rfl, .inr (.inr ⟨artifact, rfl, rfl, h⟩), ?_, ?_⟩
  · simp [Statement.Installs]
  · simp

theorem planned_reconcile (issued : Issued) (ids : String → String) (serverId : String)
    (artifactIds : List String) :
    Planned issued (.deletePlugins (.notIn serverId artifactIds) ::
      artifactIds.map fun a => .upsertPlugin (ids a) serverId a) := by
  refine ⟨_, serverId, artifactIds, _, rfl, .inl fun y hs hn => ⟨hs, hn⟩, ?_, ?_⟩
  · intro s hs
    obtain ⟨a, ha, rfl⟩ := List.mem_map.mp hs
    exact ⟨rfl, ha⟩
  · exact fun a ha => ⟨ids a, List.mem_map.mpr ⟨a, ha, rfl⟩⟩

theorem planned_deletion (issued : Issued) (artifactId : String) :
    Planned issued (deletion artifactId) := by
  refine ⟨_, "", [], _, rfl, .inr (.inl rfl), ?_, ?_⟩
  · simp [Statement.Installs]
  · simp

/-! ## The transactions of a call -/

/-- Answers as far as the issued ids decide them. -/
def Answers : Handler Request (Settled Error Answer) Issued
  | .findArtifact id, issued, r, issued' => issued ⊆ issued' ∧
    ∀ a, r = .ok (some a) → a.id = id ∧ (a.id, a.project) ∈ issued'
  | _, issued, _, issued' => issued ⊆ issued'

theorem Answers.subset {c : Request} {issued issued' : Issued} {r : Settled Error Answer c}
    (h : Answers c issued r issued') : issued ⊆ issued' := by
  cases c with
  | findArtifact id => exact h.1
  | _ => exact h

/-- Ids are only added, and every transaction is planned. -/
def planning : Contract Request Issued where
  rely issued issued' := issued ⊆ issued'
  guar c issued issued' := issued ⊆ issued' ∧
    ∀ statements, c = .transaction statements → Planned issued' statements
  refl _ := List.Subset.refl _
  trans _ _ _ h h' := List.Subset.trans h h'

/-- The code begins planned transactions only. -/
def Plans (code : Code) (issued : Issued) : Prop :=
  wp Answers planning code (fun _ _ => True) issued

/-- A request outside of transactions, or a transaction planned without knowing any row. -/
def AlwaysPlanned : Request → Prop
  | .transaction statements => ∀ issued, Planned issued statements
  | _ => True

theorem plans_of_only {code : Code} {issued : Issued} (h : code.Only AlwaysPlanned) :
    Plans code issued := by
  refine wp_of_only h trivial (fun _ _ _ _ => trivial) fun c issued r issued' hc _ hr => ?_
  refine ⟨⟨hr.subset, ?_⟩, trivial⟩
  rintro statements rfl
  exact hc issued'

theorem wp_promiseAll {C : Type} {T : C → Type} {ε α β σ : Type} {H : Handler C (Settled ε T) σ}
    {K : Contract C σ} {p : Async ε T α} {q : Async ε T β} {P : α → σ → Prop}
    {Q : β → σ → Prop} {s : σ} (hK : ∀ c s s', K.guar c s s' → K.rely s s')
    (hp : wp H K p.run (fun r s => ∀ a, r = .ok a → P a s) s)
    (hq : wp H K q.run (fun r s => ∀ b, r = .ok b → Q b s) s) :
    wp H K (Loose.both (.ofAsync p) (.ofAsync q)).finish.run
      (fun r s => ∀ x, r = .ok x → P x.1 s ∧ Q x.2 s) s := by
  have side : ∀ {γ : Type} {r : Async ε T γ} {S : γ → σ → Prop},
      wp H K r.run (fun x s => ∀ c, x = .ok c → S c s) s →
      Loose.Settles H K (.ofAsync r) S (fun _ => True) s := by
    refine fun h => Loose.settles_ofAsync (wp_mono h fun x t hx => ?_)
    cases x with
    | ok c => exact hx c rfl
    | error e => trivial
  have hboth := Loose.settles_refines (L := K) (Loose.settles_both ⟨hK, hK⟩ (side hp) (side hq))
    ⟨fun _ _ h => ⟨h, h⟩, fun _ _ _ h => h.elim id id⟩
  refine wp_mono (Loose.wp_finish hboth) fun r t hr x hx => ?_
  subst hx
  exact hr

theorem wp_findArtifact (id : String) (issued : Issued) :
    wp Answers planning (await (.findArtifact id)).run
      (fun r issued => ∀ x, r = .ok x → ∀ a, x = some a → (a.id, a.project) ∈ issued) issued := by
  intro t ht r u hu
  refine ⟨⟨hu.subset, nofun⟩, fun v hv x hx a ha => hv ?_⟩
  exact (hu.2 a (hx.trans (congrArg _ ha))).2

theorem plans_deploy (parseUrl : String → Option Url) (id serverId artifactId : String)
    (issued : Issued) : Plans (codeOf parseUrl (.deploy id serverId artifactId)) issued := by
  unfold Plans codeOf
  refine wp_async_bind (wp_async_bind (wp_mono (wp_promiseAll (P := fun _ _ => True)
    (fun _ _ _ h => h.1) ?_ (wp_findArtifact artifactId issued)) fun r u hr => ?_))
  · exact fun t ht r u hu => ⟨⟨hu.subset, nofun⟩, fun _ _ _ _ => trivial⟩
  cases r with
  | error e => exact fun _ _ => fun _ _ => trivial
  | ok x =>
    obtain ⟨server, artifact⟩ := x
    have hartifact := (hr _ rfl).2
    cases server with
    | false => exact fun _ _ => fun _ _ => trivial
    | true =>
      cases artifact with
      | none => exact fun _ _ => fun _ _ => trivial
      | some a =>
        intro t ht r v hv
        refine ⟨⟨hv.subset, ?_⟩, ?_⟩
        · rintro statements ⟨⟩
          exact planned_deploy id serverId (hv.subset (ht (hartifact a rfl)))
        · cases r <;> exact fun _ _ => fun _ _ => trivial

theorem only_register (parseUrl : String → Option Url) (fresh : Fresh)
    (input : RegistryVersion) : (register parseUrl fresh input).run.Only AlwaysPlanned := by
  refine Async.only_bind ?_ fun _ => ?_
  · unfold validateProviderUrl
    split
    · trivial
    · dsimp only
      split_ifs <;> trivial
  · cases input.sha256 with
    | some sha256 => exact Async.only_bind trivial fun _ => Async.only_await trivial
    | none =>
      refine Async.only_bind ?_ fun _ => Async.only_await trivial
      unfold hashRemoteFile
      split_ifs
      · trivial
      · refine Async.only_bind (Async.only_await trivial) fun bytes => ?_
        cases bytes with
        | none => trivial
        | some bytes => by_cases h : bytes.length ≠ input.size <;> simp [h] <;> trivial

theorem only_upload (fresh : Fresh) (file : File) :
    (upload fresh file).run.Only AlwaysPlanned := by
  unfold upload
  split_ifs
  · trivial
  · trivial
  · trivial
  · refine Async.only_bind (Async.only_bind (Async.only_attempt (Async.only_await trivial))
      fun r => ?_) fun _ => Async.only_bind (Async.only_await trivial) fun _ =>
        Async.only_await trivial
    cases r with
    | ok _ => trivial
    | error _ => exact Async.only_await trivial

theorem only_deleteArtifact (artifactId : String) :
    (deleteArtifact artifactId).run.Only AlwaysPlanned := by
  refine Async.only_bind (Async.only_await trivial) fun r => ?_
  cases r with
  | none => trivial
  | some x =>
    refine Async.only_bind ?_ fun _ => Async.only_bind (Async.only_await fun issued =>
      planned_deletion issued artifactId) fun _ => trivial
    unfold deleteStored
    split
    · exact Async.only_await trivial
    · trivial

theorem only_reconcile (ids : String → String) (serverId : String) (artifactIds : List String) :
    (reconcile ids serverId artifactIds).run.Only AlwaysPlanned := by
  refine Async.only_bind (Async.only_await trivial) fun server => ?_
  cases server with
  | false => trivial
  | true =>
    refine Async.only_bind (Async.only_await trivial) fun artifacts => ?_
    by_cases h : artifacts.length ≠ artifactIds.eraseDups.length
    · rw [if_pos h]
      trivial
    · rw [if_neg h]
      exact Async.only_await fun issued => planned_reconcile issued ids serverId _

theorem only_remove (serverId installationId : String) :
    (remove serverId installationId).run.Only AlwaysPlanned := by
  refine Async.only_bind (Async.only_await trivial) fun count => ?_
  by_cases h : count = 0 <;> simp [h] <;> trivial

/-- Every call of the service begins planned transactions only. -/
theorem plans_code (parseUrl : String → Option Url) (call : Call) (issued : Issued) :
    Plans (codeOf parseUrl call) issued := by
  cases call with
  | deploy id serverId artifactId => exact plans_deploy parseUrl id serverId artifactId issued
  | reconcile ids serverId artifactIds =>
    exact plans_of_only (only_reconcile ids serverId artifactIds)
  | remove serverId installationId => exact plans_of_only (only_remove serverId installationId)
  | register fresh input =>
    exact plans_of_only (Async.only_bind (only_register parseUrl fresh input) fun _ => trivial)
  | upload fresh file =>
    exact plans_of_only (Async.only_bind (only_upload fresh file) fun _ => trivial)
  | deleteArtifact artifactId =>
    exact plans_of_only (Async.only_bind (only_deleteArtifact artifactId) fun _ => trivial)

end Minikura.Registry
