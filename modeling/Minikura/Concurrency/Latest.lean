import Mathlib.Algebra.Order.Group.Nat
import Mathlib.Logic.Function.Basic

/-!
# The newest of the numbered reads

A client reads a store that others change. Its reads are numbered, they may overtake one another,
and the client takes over only what the newest has found. What it shows then never goes back in
time, and is no older than the start of the newest read as soon as that is taken over.

## Main definitions

* `Reader` — the versions of the store, the reads on their way, and what the client shows.
* `Reader.Good` — what holds of every reader.
* `Reader.Before` — the one shows nothing newer than the other.

## Main results

* `good_change`, `good_start`, `good_answer`, `good_drop`, `good_take` — every step keeps it.
* `Good.before_take` — taking over the newest read goes forward in time.
-/

namespace Minikura.Concurrency

variable {α τ : Type}

/-- A read on its way, for the sake of something. -/
structure Read (α τ : Type) where
  number : ℕ
  /-- The version of the store when the read was started. -/
  since : ℕ
  tag : τ
  /-- The version that was read, and what it was. -/
  found : Option (ℕ × α) := none

structure Reader (α τ : Type) where
  /-- What the store was in each version. -/
  values : ℕ → α
  version : ℕ := 0
  issued : ℕ := 0
  /-- The version when the newest read was started. -/
  asked : ℕ := 0
  /-- The newest read has been taken over. -/
  taken : Bool := false
  reads : List (Read α τ) := []
  shown : Option (ℕ × α) := none

namespace Reader

/-! ## Steps -/

def current (x : Reader α τ) : α := x.values x.version

def change (x : Reader α τ) (a : α) : Reader α τ :=
  { x with
    values := fun v => if v = x.version + 1 then a else x.values v
    version := x.version + 1 }

def start (x : Reader α τ) (tag : τ) : Reader α τ :=
  { x with
    issued := x.issued + 1
    asked := x.version
    taken := false
    reads := ⟨x.issued + 1, x.version, tag, none⟩ :: x.reads }

/-- The store answers a read. -/
def answer (x : Reader α τ) (number : ℕ) : Reader α τ :=
  { x with reads := x.reads.map fun r =>
      if r.number = number then { r with found := some (x.version, x.current) } else r }

def drop (x : Reader α τ) (number : ℕ) : Reader α τ :=
  { x with reads := x.reads.filter (·.number ≠ number) }

/-- The client gets the answer of a read. -/
def take (x : Reader α τ) (number : ℕ) (found : ℕ × α) : Reader α τ :=
  if number = x.issued then { x.drop number with shown := some found, taken := true }
  else x.drop number

/-! ## What holds of every reader -/

structure Good (x : Reader α τ) : Prop where
  asked : x.asked ≤ x.version
  bounds : ∀ r ∈ x.reads, r.number ≤ x.issued ∧ r.since ≤ x.version
  found : ∀ r ∈ x.reads, ∀ f ∈ r.found, r.since ≤ f.1 ∧ f.1 ≤ x.version ∧ x.values f.1 = f.2
  newest : ∀ r ∈ x.reads, r.number = x.issued → r.since = x.asked ∧ x.taken = false
  shown : ∀ f ∈ x.shown, f.1 ≤ x.version ∧ x.values f.1 = f.2
  /-- What is shown is older than a newest read that is not taken over, and newer than one
  that is. -/
  older : x.taken = false → ∀ f ∈ x.shown, f.1 ≤ x.asked
  fresh : x.taken = true → ∃ f ∈ x.shown, x.asked ≤ f.1

variable {x y z : Reader α τ}

theorem good_initial (values : ℕ → α) : ({ values := values } : Reader α τ).Good where
  asked := Nat.le_refl 0
  bounds := by simp
  found := by simp
  newest := by simp
  shown := by simp
  older := by simp
  fresh := by simp

theorem values_change {v : ℕ} (h : v ≤ x.version) (a : α) :
    (x.change a).values v = x.values v := by
  have hv : v ≠ x.version + 1 := by omega
  exact if_neg hv

theorem good_change (h : x.Good) (a : α) : (x.change a).Good where
  asked := Nat.le_succ_of_le h.asked
  bounds r hr := ⟨(h.bounds r hr).1, Nat.le_succ_of_le (h.bounds r hr).2⟩
  found r hr f hf := by
    obtain ⟨hsince, hversion, hvalue⟩ := h.found r hr f hf
    exact ⟨hsince, Nat.le_succ_of_le hversion, (values_change hversion a).trans hvalue⟩
  newest := h.newest
  shown f hf := by
    obtain ⟨hversion, hvalue⟩ := h.shown f hf
    exact ⟨Nat.le_succ_of_le hversion, (values_change hversion a).trans hvalue⟩
  older := h.older
  fresh := h.fresh

theorem good_start (h : x.Good) (tag : τ) : (x.start tag).Good where
  asked := Nat.le_refl _
  bounds r hr := by
    rcases List.mem_cons.mp hr with rfl | hr
    · exact ⟨Nat.le_refl _, Nat.le_refl _⟩
    · exact ⟨Nat.le_succ_of_le (h.bounds r hr).1, (h.bounds r hr).2⟩
  found r hr f hf := by
    rcases List.mem_cons.mp hr with rfl | hr
    · cases hf
    · exact h.found r hr f hf
  newest r hr hnumber := by
    rcases List.mem_cons.mp hr with rfl | hr
    · exact ⟨rfl, rfl⟩
    · have hle := (h.bounds r hr).1
      simp only [start] at hnumber
      omega
  shown := h.shown
  older _ f hf := (h.shown f hf).1
  fresh htaken := by simp [start] at htaken

/-- A read that is answered has its number, its start and its purpose still. -/
theorem mem_reads_answer {number : ℕ} {r : Read α τ} (hr : r ∈ (x.answer number).reads) :
    ∃ q ∈ x.reads, q.number = r.number ∧ q.since = r.since ∧ q.tag = r.tag ∧
      (r.found = q.found ∨ r.found = some (x.version, x.current)) := by
  obtain ⟨q, hq, rfl⟩ := List.mem_map.mp hr
  refine ⟨q, hq, ?_⟩
  split_ifs
  · exact ⟨rfl, rfl, rfl, .inr rfl⟩
  · exact ⟨rfl, rfl, rfl, .inl rfl⟩

theorem good_answer (h : x.Good) (number : ℕ) : (x.answer number).Good where
  asked := h.asked
  bounds r hr := by
    obtain ⟨q, hq, hnumber, hsince, -⟩ := mem_reads_answer hr
    rw [← hnumber, ← hsince]
    exact h.bounds q hq
  found r hr f hf := by
    obtain ⟨q, hq, -, hsince, -, hfound⟩ := mem_reads_answer hr
    rw [← hsince]
    rcases hfound with hfound | hfound
    · exact h.found q hq f (hfound ▸ hf)
    · rw [hfound] at hf
      obtain rfl := Option.some.inj hf
      exact ⟨(h.bounds q hq).2, Nat.le_refl _, rfl⟩
  newest r hr hnumber := by
    obtain ⟨q, hq, hq', hsince, -⟩ := mem_reads_answer hr
    rw [← hsince]
    exact h.newest q hq (hq'.trans hnumber)
  shown := h.shown
  older := h.older
  fresh := h.fresh

theorem mem_reads_drop {number : ℕ} {r : Read α τ} :
    r ∈ (x.drop number).reads ↔ r ∈ x.reads ∧ r.number ≠ number := by
  simp [drop]

theorem good_drop (h : x.Good) (number : ℕ) : (x.drop number).Good where
  asked := h.asked
  bounds r hr := h.bounds r (mem_reads_drop.mp hr).1
  found r hr := h.found r (mem_reads_drop.mp hr).1
  newest r hr := h.newest r (mem_reads_drop.mp hr).1
  shown := h.shown
  older := h.older
  fresh := h.fresh

theorem good_take (h : x.Good) {r : Read α τ} (hr : r ∈ x.reads) {f : ℕ × α}
    (hf : r.found = some f) : (x.take r.number f).Good := by
  have hdrop := good_drop h r.number
  unfold take
  split_ifs with hnewest
  · obtain ⟨hsince, hversion, hvalue⟩ := h.found r hr f hf
    refine ⟨hdrop.asked, hdrop.bounds, hdrop.found, ?_, ?_, ?_, ?_⟩
    · intro q hq hnumber
      exact absurd (hnumber.trans hnewest.symm) (mem_reads_drop.mp hq).2
    · intro g hg
      obtain rfl := Option.some.inj hg
      exact ⟨hversion, hvalue⟩
    · intro htaken
      cases htaken
    · intro _
      exact ⟨f, rfl, (h.newest r hr hnewest).1 ▸ hsince⟩
  · exact hdrop

/-! ## The newest read -/

/-- The newest read is on its way. -/
def Pending (x : Reader α τ) : Prop := ∃ r ∈ x.reads, r.number = x.issued

theorem pending_start (tag : τ) : (x.start tag).Pending := ⟨_, List.mem_cons_self .., rfl⟩

theorem pending_answer {number : ℕ} : (x.answer number).Pending ↔ x.Pending := by
  constructor
  · rintro ⟨r, hr, hnumber⟩
    obtain ⟨q, hq, hq', -⟩ := mem_reads_answer hr
    exact ⟨q, hq, hq'.trans hnumber⟩
  · rintro ⟨r, hr, hnumber⟩
    refine ⟨_, List.mem_map_of_mem hr, ?_⟩
    split_ifs <;> exact hnumber

theorem pending_drop {number : ℕ} :
    (x.drop number).Pending ↔ x.Pending ∧ number ≠ x.issued := by
  constructor
  · rintro ⟨r, hr, hnumber⟩
    obtain ⟨hr, hne⟩ := mem_reads_drop.mp hr
    exact ⟨⟨r, hr, hnumber⟩, fun h => hne (hnumber.trans h.symm)⟩
  · rintro ⟨⟨r, hr, hnumber⟩, hne⟩
    exact ⟨r, mem_reads_drop.mpr ⟨hr, fun h => hne (h.symm.trans hnumber)⟩, hnumber⟩

theorem take_fields (number : ℕ) (f : ℕ × α) : (x.take number f).reads = (x.drop number).reads ∧
    (x.take number f).issued = x.issued ∧ (x.take number f).asked = x.asked ∧
    (x.take number f).version = x.version := by
  unfold take
  split_ifs <;> exact ⟨rfl, rfl, rfl, rfl⟩

theorem pending_take {number : ℕ} {f : ℕ × α} :
    (x.take number f).Pending ↔ x.Pending ∧ number ≠ x.issued := by
  obtain ⟨hreads, hissued, -, -⟩ := @take_fields _ _ x number f
  rw [← pending_drop, Pending, Pending, hreads, hissued]
  rfl

/-! ## Time -/

/-- The versions of the one are those of the other, and it shows nothing newer. -/
structure Before (x y : Reader α τ) : Prop where
  version : x.version ≤ y.version
  values : ∀ v ≤ x.version, y.values v = x.values v
  shown : ∀ f ∈ x.shown, ∃ g ∈ y.shown, f.1 ≤ g.1

namespace Before

theorem refl (x : Reader α τ) : x.Before x where
  version := Nat.le_refl _
  values _ _ := rfl
  shown f hf := ⟨f, hf, Nat.le_refl _⟩

theorem trans (h : x.Before y) (h' : y.Before z) : x.Before z where
  version := Nat.le_trans h.version h'.version
  values v hv := (h'.values v (Nat.le_trans hv h.version)).trans (h.values v hv)
  shown f hf := by
    obtain ⟨g, hg, hfg⟩ := h.shown f hf
    obtain ⟨k, hk, hgk⟩ := h'.shown g hg
    exact ⟨k, hk, Nat.le_trans hfg hgk⟩

end Before

theorem before_change (x : Reader α τ) (a : α) : x.Before (x.change a) where
  version := Nat.le_succ _
  values _ hv := values_change hv a
  shown f hf := ⟨f, hf, Nat.le_refl _⟩

/-- What is shown stays until a read is taken over. -/
theorem before_of_same (hvalues : y.values = x.values) (hversion : y.version = x.version)
    (hshown : y.shown = x.shown) : x.Before y where
  version := Nat.le_of_eq hversion.symm
  values v _ := congrFun hvalues v
  shown f hf := ⟨f, hshown ▸ hf, Nat.le_refl _⟩

theorem Good.before_take (h : x.Good) {r : Read α τ} (hr : r ∈ x.reads) {f : ℕ × α}
    (hf : r.found = some f) : x.Before (x.take r.number f) := by
  unfold take
  split_ifs with hnewest
  · refine ⟨Nat.le_refl _, fun _ _ => rfl, fun g hg => ⟨f, rfl, ?_⟩⟩
    -- the newest read was started when the one that is shown had been taken over
    obtain ⟨hsince, htaken⟩ := h.newest r hr hnewest
    have holder := h.older htaken g hg
    have hfound := (h.found r hr f hf).1
    omega
  · exact before_of_same rfl rfl rfl

end Reader
end Minikura.Concurrency
