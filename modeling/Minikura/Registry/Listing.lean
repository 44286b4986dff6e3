import Minikura.Concurrency.Rows
import Minikura.Registry.Catalog

/-!
# Listing the library

A listing asks the providers for the metadata of all artifacts that lack an icon, all at the same
time, and writes what it gets. Whatever fails is left as it was, and the order of the answers
makes no difference.

## Main definitions

* `refreshed` — what becomes of a row.

## Main result

* `listing_refreshes` — the rows after a listing, and what it returns.
-/

namespace Minikura.Registry
open Concurrency

/-- What there is of the project of an artifact. -/
def foundFor (providers : (f : Fetch) → Option (Fetched f)) (provider : PluginProvider)
    (projectId : String) : Option RegistryProject :=
  match provider with
  | .modrinth => (providers (.modrinthProject projectId)).map (·.project projectId)
  | .hangar =>
    match hangarId projectId with
    | none => none
    | some (owner, slug) =>
      (providers (.hangarProject owner slug)).map (·.project projectId owner slug)
  | .upload => none

/-- The updates have fates of their own, by the id of the artifact. -/
def refreshed (providers : (f : Fetch) → Option (Fetched f)) (fates : String → Fate)
    (a : PluginArtifact) : PluginArtifact :=
  if a.lacksMetadata then
    match foundFor providers a.provider a.providerProjectId with
    | none => a
    | some found => if (fates a.id).applied then a.update (found.metadata a) else a
  else a

/-- The requests of a listing, with updates that may fail before or after they have taken
effect. -/
def listingAnswer (providers : (f : Fetch) → Option (Fetched f)) (fates : String → Fate)
    (c : CatalogRequest) (s : State) : Except Error (CatalogAnswer c) × State :=
  match c with
  | .updateMetadata id data =>
    match fates id with
    | .answered => catalogPerform (fun _ => none) providers (.updateMetadata id data) s
    | .lost =>
      (.error .rejected, (catalogPerform (fun _ => none) providers (.updateMetadata id data) s).2)
    | .failed => (.error .rejected, s)
  | c => catalogPerform (fun _ => none) providers c s

abbrev listingApi (providers : (f : Fetch) → Option (Fetched f)) (fates : String → Fate) :
    Handler CatalogRequest (Settled Error CatalogAnswer) State :=
  Handler.ofFun (listingAnswer providers fates)

/-- The others install and upload, but write no artifact. -/
def SameArtifacts (s s' : State) : Prop := s'.db.artifacts = s.db.artifacts

variable {providers : (f : Fetch) → Option (Fetched f)} {fates : String → Fate}

/-! ## Rows -/

def State.row (s : State) (id : String) : Option PluginArtifact := s.db.findArtifact id

def State.HasIds (ids : List String) (s : State) : Prop := s.db.artifacts.map (·.id) = ids

@[simp] theorem id_refreshed (a : PluginArtifact) : (refreshed providers fates a).id = a.id := by
  unfold refreshed
  split
  · split
    · rfl
    · split <;> rfl
  · rfl

/-- Rows are told apart by their ids. -/
theorem find_of_mem {l : List PluginArtifact} {a : PluginArtifact} (hids : (l.map (·.id)).Nodup)
    (ha : a ∈ l) : l.find? (·.id = a.id) = some a := by
  cases hfind : l.find? (·.id = a.id) with
  | none => exact absurd (List.find?_eq_none.mp hfind a ha) (by simp)
  | some b =>
    have hb : b.id = a.id := by simpa using List.find?_some hfind
    rw [List.inj_on_of_nodup_map hids (List.mem_of_find?_eq_some hfind) ha hb]

/-- A table is known by the order of its ids and its rows. -/
theorem eq_map_of_find {l l' : List PluginArtifact} {f : PluginArtifact → PluginArtifact}
    (hids : (l.map (·.id)).Nodup) (hsame : l'.map (·.id) = l.map (·.id))
    (hfind : ∀ a ∈ l, l'.find? (·.id = a.id) = some (f a)) : l' = l.map f := by
  have hlength : l'.length = l.length := by simpa using congrArg List.length hsame
  refine List.ext_getElem (by simpa using hlength) fun i hi hi' => ?_
  have hil : i < l.length := hlength ▸ hi
  have hid : l'[i].id = l[i].id := by
    have hat := List.getElem_of_eq hsame (by simpa using hi : i < (l'.map (·.id)).length)
    simpa only [List.getElem_map] using hat
  have hrow := find_of_mem (hsame ▸ hids) (List.getElem_mem hi)
  rw [hid, hfind _ (List.getElem_mem hil)] at hrow
  rw [List.getElem_map]
  exact (Option.some.inj hrow).symm

def State.written (s : State) (id : String) (data : ArtifactUpdate) : State :=
  { s with
    db := { s.db with
      artifacts := s.db.artifacts.map fun a => if a.id = id then a.update data else a } }

theorem row_written (s : State) (id i : String) (data : ArtifactUpdate) :
    (s.written id data).row i =
      (s.row i).map fun a => if a.id = id then a.update data else a := by
  have hids : ((fun a : PluginArtifact => decide (a.id = i)) ∘ fun a =>
      if a.id = id then a.update data else a) = fun a => decide (a.id = i) := by
    funext a
    rw [Function.comp_apply]
    split <;> rfl
  rw [State.row, Database.findArtifact, State.written, List.find?_map, hids]
  rfl

theorem hasIds_written {s : State} {ids : List String} (hs : s.HasIds ids) (id : String)
    (data : ArtifactUpdate) : (s.written id data).HasIds ids := by
  rw [State.HasIds, State.written, List.map_map, ← hs]
  refine List.map_congr_left fun a _ => ?_
  rw [Function.comp_apply]
  split <;> rfl

/-- An update takes effect or not. -/
theorem listingAnswer_update {s : State} {id : String} {a : PluginArtifact}
    (h : s.row id = some a) (data : ArtifactUpdate) :
    (listingAnswer providers fates (.updateMetadata id data) s).2 =
      if (fates id).applied then s.written id data else s := by
  have hperform : (catalogPerform (fun _ => none) providers (.updateMetadata id data) s).2 =
      s.written id data := by
    simp only [catalogPerform, show s.db.findArtifact id = some a from h]
    rfl
  cases hfate : fates id <;> simp [listingAnswer, hfate, hperform, Fate.applied]

/-! ## One artifact -/

section FillIn

variable {ids : List String} {a : PluginArtifact} {s : State}

/-- The rows are as the others leave them. -/
abbrev owning (ids : List String) (a : PluginArtifact) : Contract CatalogRequest State :=
  own (State.HasIds ids) State.row a.id

theorem wp_fetchFor {f : Fetch} {g : Fetched f → RegistryProject} (hrow : s.row a.id = some a) :
    wp (listingApi providers fates) (owning ids a)
      (do return g (← ask (.fetch f)) : CatalogTask RegistryProject).run
      (fun r t => r.toOption = (providers f).map g ∧ t.row a.id = some a) s := by
  refine wp_async_bind ?_
  rintro t ⟨-, ht⟩ r u hu
  obtain ⟨rfl, rfl⟩ := Prod.mk.inj hu
  refine ⟨⟨id, fun _ _ => rfl⟩, ?_⟩
  rintro v ⟨-, hv⟩
  have hrow := hv.trans (ht.trans hrow)
  cases providers f with
  | none => exact fun w hw => ⟨rfl, hw.2.trans hrow⟩
  | some found => exact fun w hw => ⟨rfl, hw.2.trans hrow⟩

theorem wp_project (provider : PluginProvider) (projectId : String) (hrow : s.row a.id = some a) :
    wp (listingApi providers fates) (owning ids a) (project provider projectId).run
      (fun r t => r.toOption = foundFor providers provider projectId ∧ t.row a.id = some a) s := by
  cases provider with
  | modrinth => exact wp_fetchFor hrow
  | hangar =>
    unfold project foundFor
    cases hangarId projectId with
    | none => exact fun v hv => ⟨rfl, hv.2.trans hrow⟩
    | some id => exact wp_fetchFor hrow
  | upload => exact fun v hv => ⟨rfl, hv.2.trans hrow⟩

theorem wp_fillIn (hlacks : a.lacksMetadata) (hrow : s.row a.id = some a) :
    wp (listingApi providers fates) (owning ids a) (fillIn a).run
      (fun _ t => t.row a.id = some (refreshed providers fates a)) s := by
  refine wp_async_bind (wp_mono (wp_project _ _ hrow) fun r t ⟨hr, ht⟩ => ?_)
  rw [refreshed, if_pos hlacks, ← hr]
  cases r with
  | error e => exact fun u hu => hu.2.trans ht
  | ok found =>
    rintro u ⟨-, hu⟩ r v hv
    have hurow : u.row a.id = some a := hu.trans ht
    have hstate : v = if (fates a.id).applied then u.written a.id (found.metadata a) else u :=
      (congrArg Prod.snd hv).symm.trans (listingAnswer_update hurow _)
    rw [Except.toOption]
    dsimp only
    split_ifs at hstate ⊢ with happlied
    · subst hstate
      refine ⟨⟨fun h => hasIds_written h _ _, fun i hi => ?_⟩, fun w hw => ?_⟩
      · rw [row_written]
        cases hrow : u.row i with
        | none => rfl
        | some b =>
          have hb : b.id = i := by simpa using List.find?_some hrow
          rw [Option.map_some, if_neg (hb ▸ hi)]
      · have hwritten : (u.written a.id (found.metadata a)).row a.id =
            some (a.update (found.metadata a)) := by
          rw [row_written, hurow, Option.map_some, if_pos rfl]
        exact hw.2.trans hwritten
    · subst hstate
      exact ⟨⟨id, fun _ _ => rfl⟩, fun w hw => hw.2.trans hurow⟩

end FillIn

/-! ## The listing -/

section Listing

variable {s s' : State}

/-- What a listing leaves and returns. -/
def Listed (providers : (f : Fetch) → Option (Fetched f)) (fates : String → Fate) (s : State)
    (r : Except Error (List (PluginArtifact × List String))) (t : State) : Prop :=
  t.db.artifacts = s.db.artifacts.map (refreshed providers fates) ∧
    ∃ rows, r = .ok rows ∧ rows.map (·.1) = t.db.artifacts.reverse

/-- The rows that are written. -/
def lacking (s : State) : List PluginArtifact := s.db.artifacts.filter (·.lacksMetadata)

theorem nodup_lacking (hids : (s.db.artifacts.map (·.id)).Nodup) :
    ((lacking s).map (·.id)).Nodup :=
  hids.sublist (List.filter_sublist.map _)

theorem listed_of_rows {t : State} (hids : (s.db.artifacts.map (·.id)).Nodup)
    (hsame : t.HasIds (s.db.artifacts.map (·.id)))
    (hwritten : ∀ a ∈ lacking s, t.row a.id = some (refreshed providers fates a))
    (hrest : ∀ id ∉ (lacking s).map (·.id), t.row id = s.row id) :
    t.db.artifacts = s.db.artifacts.map (refreshed providers fates) := by
  refine eq_map_of_find hids hsame fun a ha => ?_
  by_cases hlacks : a.lacksMetadata
  · exact hwritten a (List.mem_filter.mpr ⟨ha, hlacks⟩)
  · have hother : a.id ∉ (lacking s).map (·.id) := by
      intro hmem
      obtain ⟨b, hb, hid⟩ := List.mem_map.mp hmem
      obtain ⟨hb, hblacks⟩ := List.mem_filter.mp hb
      exact hlacks (List.inj_on_of_nodup_map hids hb ha hid ▸ hblacks)
    rw [refreshed, if_neg hlacks]
    exact (hrest a.id hother).trans (find_of_mem hids ha)

/-- A listing writes rows that lack metadata. -/
def listing (s : State) : Contract CatalogRequest State where
  rely := SameArtifacts
  guar := (owners (State.HasIds (s.db.artifacts.map (·.id))) State.row
    ((lacking s).map (·.id))).guar
  refl _ := rfl
  trans _ _ _ h h' := h'.trans h

theorem owners_refines_listing :
    (owners (State.HasIds (s.db.artifacts.map (·.id))) State.row
      ((lacking s).map (·.id))).Refines (listing s) := by
  refine ⟨fun t t' h => ⟨fun hids => ?_, fun id => ?_⟩, fun _ _ _ h => h⟩
  · rwa [State.HasIds, show t'.db.artifacts = t.db.artifacts from h]
  · rw [State.row, State.row, Database.findArtifact, Database.findArtifact,
      show t'.db.artifacts = t.db.artifacts from h]

theorem wp_fillInAll {t : State} (hids : (s.db.artifacts.map (·.id)).Nodup)
    (ht : t.db.artifacts = s.db.artifacts) :
    wp (listingApi providers fates) (listing s)
      (Async.allSettled ((lacking s).map fillIn)).run
      (fun r u => (∃ outcomes, r = .ok outcomes) ∧
        u.db.artifacts = s.db.artifacts.map (refreshed providers fates)) t := by
  have hrow : ∀ id, t.row id = s.row id := fun id => by
    rw [State.row, State.row, Database.findArtifact, Database.findArtifact, ht]
  have hsame : t.HasIds (s.db.artifacts.map (·.id)) := congrArg _ ht
  have hall := wp_allSettled_own (H := listingApi providers fates) (nodup_lacking hids) hsame
    fun a ha => wp_fillIn (List.mem_filter.mp ha).2
      ((hrow a.id).trans (find_of_mem hids (List.mem_filter.mp ha).1))
  have hdone := wp_refines hall owners_refines_listing
  refine wp_map.mpr ?_
  rw [List.map_map]
  refine wp_mono hdone fun outcomes u hu => ⟨⟨outcomes, rfl⟩, ?_⟩
  obtain ⟨hwritten, hids', hrest⟩ := hu
  exact listed_of_rows hids hids' hwritten fun id hid => (hrest id hid).trans (hrow id)

theorem wp_listArtifacts (hids : (s.db.artifacts.map (·.id)).Nodup) :
    wp (listingApi providers fates) (listing s) listArtifacts.run (Listed providers fates s) s := by
  unfold listArtifacts
  refine wp_async_bind fun t ht r u hu => ?_
  obtain ⟨rfl, rfl⟩ := Prod.mk.inj hu
  refine ⟨⟨id, fun _ _ => rfl⟩, fun v hv => ?_⟩
  have hlacking : t.db.artifacts.filter (·.lacksMetadata) = lacking s := congrArg _ ht
  simp only [hlacking]
  refine wp_async_bind (wp_mono (wp_fillInAll hids (hv.trans ht)) ?_)
  rintro _ w ⟨⟨outcomes, rfl⟩, hrows⟩ x hx r y hy
  obtain ⟨rfl, rfl⟩ := Prod.mk.inj hy
  refine ⟨⟨id, fun _ _ => rfl⟩, fun z hz => ⟨hz.trans (hx.trans hrows), _, rfl, ?_⟩⟩
  rw [Database.artifactsWithServers, List.map_map, show z.db.artifacts = x.db.artifacts from hz]
  exact List.map_id' _

end Listing

/-- An artifact that was stored without metadata. -/
def viaVersion : PluginArtifact where
  id := "1"
  provider := .modrinth
  providerProjectId := "P1OZGk5p"
  providerVersionId := "v1"
  name := "P1OZGk5p"
  version := "5.0.0"
  platform := "PAPER"
  minecraftVersions := ["1.21"]
  filename := "ViaVersion-5.0.0.jar"
  size := 5242880
  sha256 := ""
  downloadToken := "t1"

def modrinthHas : (f : Fetch) → Option (Fetched f)
  | .modrinthProject _ => some {
      title := "ViaVersion", description := "Allow newer clients", iconUrl := some "icon.png"
      categories := ["utility"], slug := some "viaversion" }
  | _ => none

end Minikura.Registry
