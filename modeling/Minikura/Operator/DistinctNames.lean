import Mathlib.Data.List.TakeWhile
import Minikura.Operator.ResourceNames

/-!
# Names of any length

The operator also accepts resources that were not written by the backend, with names up to the
253 characters of Kubernetes. What it generates for them are DNS labels, and a name that is cut
ends in its hash to be told apart from the others that are cut. From those that are not cut
nothing tells it apart: one of them may spell it out.

## Main definitions

* `DNSStyle`, `DNSLabel` — the names of resources, and those that are generated.
* `SpellsCut` — a name is what a longer one is cut to.

## Main results

* `names_distinct_iff` — the generated names are distinct if no name spells out the other.
-/

namespace Minikura.Operator
open Backend (isLowerAlnum ReverseProxyServerType)

/-! ## Labels -/

/-- Lower case letters, digits and dashes, without a dash at either end. -/
structure DNSStyle (s : String) : Prop where
  chars : ∀ c ∈ s.toList, isLowerAlnum c ∨ c = '-'
  head : ∃ c, s.toList.head? = some c ∧ isLowerAlnum c
  last : ∃ c, s.toList.getLast? = some c ∧ isLowerAlnum c

structure DNSLabel (s : String) : Prop extends DNSStyle s where
  length : s.length ≤ 63

section Labels

variable {s t : String}

theorem ne_dash_of_isLowerAlnum {c : Char} (h : isLowerAlnum c) : c ≠ '-' := by
  rintro rfl
  exact absurd h (by decide)

theorem chars_of_all {cs : List Char} (h : cs.all fun c => isLowerAlnum c || c = '-') :
    ∀ c ∈ cs, isLowerAlnum c ∨ c = '-' := by
  simpa only [List.all_eq_true, Bool.or_eq_true, decide_eq_true_eq] using h

theorem isLowerAlnum_of_mem_hexDigits :
    ∀ c ∈ "0123456789abcdef".toList, isLowerAlnum c = true :=
  List.all_eq_true.mp (by decide)

theorem isLowerAlnum_of_mem_hashPrefix {c : Char} (h : c ∈ hashPrefix s) : isLowerAlnum c := by
  obtain ⟨i, -, rfl⟩ := List.mem_map.mp h
  exact isLowerAlnum_of_mem_hexDigits _ (hexDigit_mem _)

theorem mem_of_mem_trimRight {cs : List Char} {c d : Char} (h : d ∈ trimRight cs c) : d ∈ cs := by
  rw [trimRight, List.mem_reverse] at h
  exact List.mem_reverse.mp ((List.dropWhile_sublist _).subset h)

/-- A name in the style of DNS is one after it has been cut. -/
theorem dnsLabel_limitedName (h : DNSStyle s) : DNSLabel (limitedName s dnsLabelMaxLength) where
  chars := by
    rcases Nat.lt_or_ge dnsLabelMaxLength s.length with hl | hl
    · intro c hc
      rw [toList_limitedName_of_lt hl, List.mem_append, List.mem_cons] at hc
      rcases hc with hc | rfl | hc
      · exact h.chars c (List.mem_of_mem_take (mem_of_mem_trimRight hc))
      · exact .inr rfl
      · exact .inl (isLowerAlnum_of_mem_hashPrefix hc)
    · rw [limitedName_of_le hl]
      exact h.chars
  head := by
    obtain ⟨c, hhead, hc⟩ := h.head
    exact ⟨c, head?_limitedName (by decide) (ne_dash_of_isLowerAlnum hc) hhead, hc⟩
  last := by
    rcases Nat.lt_or_ge dnsLabelMaxLength s.length with hl | hl
    · obtain ⟨c, hc, hlast⟩ := getLast?_limitedName_of_lt hl
      exact ⟨c, hlast, isLowerAlnum_of_mem_hexDigits c hc⟩
    · rw [limitedName_of_le hl]
      exact h.last
  length := length_limitedName (by decide)

/-- Characters may be put before a name. -/
theorem DNSStyle.append (hs : ∀ c ∈ s.toList, isLowerAlnum c ∨ c = '-')
    (hhead : ∃ c, s.toList.head? = some c ∧ isLowerAlnum c) (ht : DNSStyle t) :
    DNSStyle (s ++ t) where
  chars := by
    rw [String.toList_append]
    exact List.forall_mem_append.mpr ⟨hs, ht.chars⟩
  head := by
    obtain ⟨c, hc, halnum⟩ := hhead
    exact ⟨c, by rw [String.toList_append, List.head?_append, hc]; rfl, halnum⟩
  last := by
    obtain ⟨c, hc, halnum⟩ := ht.last
    exact ⟨c, by rw [String.toList_append, List.getLast?_append, hc]; rfl, halnum⟩

theorem dnsStyle_config : DNSStyle "config" where
  chars := chars_of_all (by decide)
  head := ⟨'c', rfl, by decide⟩
  last := ⟨'g', rfl, by decide⟩

theorem dnsLabel_configMapName (h : DNSStyle s) : DNSLabel (configMapName s) := by
  have hconfig : DNSStyle (s ++ "-" ++ "config") := by
    refine .append ?_ ?_ dnsStyle_config
    · rw [String.toList_append]
      exact List.forall_mem_append.mpr ⟨h.chars, chars_of_all (by decide)⟩
    · obtain ⟨c, hc, halnum⟩ := h.head
      exact ⟨c, by rw [String.toList_append, List.head?_append, hc]; rfl, halnum⟩
  rw [String.append_assoc] at hconfig
  exact dnsLabel_limitedName hconfig

end Labels

/-! ## Stems -/

/-- What is put before the name of a server, and of a proxy of each type. -/
def nameStems : List String := ["minecraft-", "velocity-", "bungeecord-"]

/-- The name is a longer one cut: its beginning without dashes at the end, and its hash. -/
def SpellsCut (stem longer name : String) : Prop :=
  dnsLabelMaxLength < (stem ++ longer).length ∧ (stem ++ name).length ≤ dnsLabelMaxLength ∧
    name.toList = trimRight (longer.toList.take (54 - stem.length)) '-' ++
      '-' :: hashPrefix (stem ++ longer)

/-- Names that are too long do not share the hash that ends the names cut from them. -/
def HashesDiffer (n n' : String) : Prop :=
  ∀ stem ∈ nameStems, dnsLabelMaxLength < (stem ++ n).length →
    dnsLabelMaxLength < (stem ++ n').length → hashPrefix (stem ++ n) ≠ hashPrefix (stem ++ n')

/-- Neither name spells out what is generated from the other. -/
def NoneSpellsCut (n n' : String) : Prop :=
  ∀ stem ∈ nameStems, ¬SpellsCut stem n n' ∧ ¬SpellsCut stem n' n

section Stems

variable {stem n n' : String}

theorem dnsStyle_stem (hstem : stem ∈ nameStems) (h : DNSStyle n) : DNSStyle (stem ++ n) := by
  have hchars : ∀ stem ∈ nameStems, stem.toList.all fun c => isLowerAlnum c || c = '-' := by
    decide
  have hhead : ∀ stem ∈ nameStems, stem.toList.head?.any isLowerAlnum := by decide
  refine .append (chars_of_all (hchars stem hstem)) ?_ h
  simpa [Option.any_eq_true] using hhead stem hstem

theorem length_stem_le (hstem : stem ∈ nameStems) : stem.length ≤ 11 := by
  have hle : ∀ stem ∈ nameStems, stem.length ≤ 11 := by decide
  exact hle stem hstem

/-- What is trimmed is behind the last other character. -/
theorem trimRight_append {p s : List Char} {c : Char} (h : ∃ d ∈ s, d ≠ c) :
    trimRight (p ++ s) c = p ++ trimRight s c := by
  obtain ⟨d, hd, hne⟩ := h
  have hrest : s.reverse.dropWhile (· = c) ≠ [] := by
    intro hnil
    exact hne (by simpa using List.dropWhile_eq_nil_iff.mp hnil d (List.mem_reverse.mpr hd))
  rw [trimRight, List.reverse_append, List.dropWhile_append, if_neg (by simpa using hrest)]
  simp [trimRight]

theorem toList_limitedName_stem (hstem : stem ∈ nameStems) (h : DNSStyle n)
    (hl : dnsLabelMaxLength < (stem ++ n).length) :
    (limitedName (stem ++ n) dnsLabelMaxLength).toList =
      stem.toList ++ (trimRight (n.toList.take (54 - stem.length)) '-' ++
        '-' :: hashPrefix (stem ++ n)) := by
  have hstem' : stem.length ≤ 11 := length_stem_le hstem
  obtain ⟨c, hhead, hc⟩ := h.head
  obtain ⟨cs, hcs⟩ : ∃ cs, n.toList = c :: cs := ⟨_, List.eq_cons_of_mem_head? hhead⟩
  have hkept : ∃ d ∈ n.toList.take (54 - stem.length), d ≠ '-' := by
    refine ⟨c, ?_, ne_dash_of_isLowerAlnum hc⟩
    rw [hcs, show 54 - stem.length = 53 - stem.length + 1 by omega, List.take_succ_cons]
    exact List.mem_cons_self ..
  have htake : (stem ++ n).toList.take (dnsLabelMaxLength - 9) =
      stem.toList ++ n.toList.take (54 - stem.length) := by
    rw [String.toList_append, List.take_append, String.length_toList,
      List.take_of_length_le (by rw [String.length_toList, dnsLabelMaxLength]; omega)]
    rfl
  rw [toList_limitedName_of_lt hl, htake, trimRight_append hkept, List.append_assoc]

/-- A name that is cut and one that is not are confused just if the one spells the other. -/
theorem limitedName_eq_iff_spellsCut (hstem : stem ∈ nameStems) (h : DNSStyle n)
    (hl : dnsLabelMaxLength < (stem ++ n).length) (hl' : (stem ++ n').length ≤ dnsLabelMaxLength) :
    limitedName (stem ++ n) dnsLabelMaxLength = limitedName (stem ++ n') dnsLabelMaxLength ↔
      SpellsCut stem n n' := by
  rw [limitedName_of_le hl', ← String.toList_inj, toList_limitedName_stem hstem h hl,
    String.toList_append, List.append_cancel_left_eq, eq_comm]
  exact ⟨fun heq => ⟨hl, hl', heq⟩, fun hspells => hspells.2.2⟩

theorem limitedName_ne_iff (hstem : stem ∈ nameStems) (h : DNSStyle n) (h' : DNSStyle n')
    (hne : n ≠ n') (hhash : HashesDiffer n n') :
    limitedName (stem ++ n) dnsLabelMaxLength ≠ limitedName (stem ++ n') dnsLabelMaxLength ↔
      ¬SpellsCut stem n n' ∧ ¬SpellsCut stem n' n := by
  rcases Nat.lt_or_ge dnsLabelMaxLength (stem ++ n).length with hl | hl <;>
    rcases Nat.lt_or_ge dnsLabelMaxLength (stem ++ n').length with hl' | hl'
  · -- both end in their hashes
    refine iff_of_true (fun heq => ?_) ⟨fun hs => by have := hs.2.1; omega,
      fun hs => by have := hs.2.1; omega⟩
    have hlist := congrArg String.toList heq
    rw [toList_limitedName_of_lt hl, toList_limitedName_of_lt hl'] at hlist
    have htail := (List.append_inj' hlist (by simp)).2
    exact hhash stem hstem hl hl' (List.cons.inj htail).2
  · rw [Ne, limitedName_eq_iff_spellsCut hstem h hl hl']
    exact (and_iff_left fun hs => by have := hs.1; omega).symm
  · rw [ne_comm, Ne, limitedName_eq_iff_spellsCut hstem h' hl' hl]
    exact (and_iff_right fun hs => by have := hs.1; omega).symm
  · rw [limitedName_of_le hl, limitedName_of_le hl']
    refine iff_of_true (fun heq => hne ((String.append_right_inj stem).mp heq)) ⟨fun hs => ?_,
      fun hs => ?_⟩
    · have := hs.1
      omega
    · have := hs.1
      omega

end Stems

/-! ## Generated names -/

/-- The names and the label value that may be generated for a resource. -/
def generatedNames (n : String) : List String :=
  let proxies := [ReverseProxyServerType.velocity, .bungeecord].map (proxyName ·.name n)
  labelValue n :: (serverName n :: proxies).flatMap fun app => [app, configMapName app]

structure NamesDistinct (n n' : String) : Prop where
  labels : ∀ m ∈ [n, n'], ∀ name ∈ generatedNames m, DNSLabel name
  servers : serverName n ≠ serverName n'
  proxies (type : ReverseProxyServerType) : proxyName type.name n ≠ proxyName type.name n'
  apart (type : ReverseProxyServerType) :
    ∀ m ∈ [n, n'], ∀ m' ∈ [n, n'], serverName m ≠ proxyName type.name m'

section Generated

variable {n n' : String}

theorem proxyStem_mem (type : ReverseProxyServerType) :
    toLower type.name ++ "-" ∈ nameStems := by
  cases type <;> decide

theorem dnsLabel_serverName (h : DNSStyle n) : DNSLabel (serverName n) :=
  dnsLabel_limitedName (dnsStyle_stem (by decide) h)

theorem dnsLabel_proxyName (type : ReverseProxyServerType) (h : DNSStyle n) :
    DNSLabel (proxyName type.name n) :=
  dnsLabel_limitedName (dnsStyle_stem (proxyStem_mem type) h)

theorem dnsLabel_of_generated (h : DNSStyle n) {name : String} (hname : name ∈ generatedNames n) :
    DNSLabel name := by
  have happ : ∀ app, DNSLabel app → ∀ name ∈ [app, configMapName app], DNSLabel name := by
    intro app hlabel
    simpa using ⟨hlabel, dnsLabel_configMapName hlabel.toDNSStyle⟩
  rw [generatedNames, List.mem_cons, List.mem_flatMap] at hname
  rcases hname with rfl | ⟨app, happs, hname⟩
  · exact dnsLabel_limitedName h
  · refine happ app ?_ name hname
    rw [List.mem_cons, List.mem_map] at happs
    rcases happs with rfl | ⟨type, -, rfl⟩
    · exact dnsLabel_serverName h
    · exact dnsLabel_proxyName type h

/-- The first letters of the stems differ. -/
theorem serverName_ne_proxyName (type : ReverseProxyServerType) :
    serverName n ≠ proxyName type.name n' := by
  have hserver : (serverName n).toList.head? = some 'm' := by
    refine head?_limitedName (by decide) (by decide) ?_
    rw [String.toList_append]
    rfl
  intro heq
  cases type with
  | velocity =>
    have hproxy : (proxyName "VELOCITY" n').toList.head? = some 'v' :=
      head?_proxyName (by decide) (by decide) n'
    rw [heq] at hserver
    exact absurd (hserver.symm.trans hproxy) (by decide)
  | bungeecord =>
    have hproxy : (proxyName "BUNGEECORD" n').toList.head? = some 'b' :=
      head?_proxyName (by decide) (by decide) n'
    rw [heq] at hserver
    exact absurd (hserver.symm.trans hproxy) (by decide)

/-- For distinct names whose generated names do not share a hash, what is generated is valid,
and it is distinct if and only if neither name spells out what the other is cut to. -/
theorem names_distinct_iff (h : DNSStyle n) (h' : DNSStyle n') (hne : n ≠ n')
    (hhash : HashesDiffer n n') : NamesDistinct n n' ↔ NoneSpellsCut n n' := by
  constructor
  · intro hdistinct stem hstem
    rw [← limitedName_ne_iff hstem h h' hne hhash]
    simp only [nameStems, List.mem_cons, List.not_mem_nil, or_false] at hstem
    rcases hstem with rfl | rfl | rfl
    · exact hdistinct.servers
    · exact hdistinct.proxies .velocity
    · exact hdistinct.proxies .bungeecord
  · intro hnone
    have hstems : ∀ stem ∈ nameStems, limitedName (stem ++ n) dnsLabelMaxLength ≠
        limitedName (stem ++ n') dnsLabelMaxLength :=
      fun stem hstem => (limitedName_ne_iff hstem h h' hne hhash).mpr (hnone stem hstem)
    refine ⟨?_, hstems _ (by decide), fun type => hstems _ (proxyStem_mem type),
      fun type _ _ _ _ => serverName_ne_proxyName type⟩
    simpa using ⟨fun _ => dnsLabel_of_generated h, fun _ => dnsLabel_of_generated h'⟩

end Generated

def longName : String := String.ofList (List.replicate 54 'a')

/-- It spells out the name of the server that `longName` has. -/
def spelledName : String := String.ofList (List.replicate 44 'a') ++ "-7fc87e96"

/-- It differs from `longName` only in what is cut off. -/
def otherLongName : String := String.ofList (List.replicate 53 'a') ++ "b"

theorem dnsStyle_longName : DNSStyle longName :=
  ⟨chars_of_all (by decide +kernel), ⟨'a', by decide +kernel, by decide⟩,
    ⟨'a', by decide +kernel, by decide⟩⟩

theorem names_distinct_iff_long :
    NamesDistinct longName otherLongName ∧ NamesDistinct longName "lobby" := by
  have hother : DNSStyle otherLongName :=
    ⟨chars_of_all (by decide +kernel), ⟨'a', by decide +kernel, by decide⟩,
      ⟨'b', by decide +kernel, by decide⟩⟩
  have hlobby : DNSStyle "lobby" :=
    ⟨chars_of_all (by decide), ⟨'l', rfl, by decide⟩, ⟨'y', rfl, by decide⟩⟩
  have hhash : HashesDiffer longName otherLongName ∧ HashesDiffer longName "lobby" := by
    unfold HashesDiffer
    decide +kernel
  have hnone : NoneSpellsCut longName otherLongName ∧ NoneSpellsCut longName "lobby" := by
    unfold NoneSpellsCut SpellsCut
    decide +kernel
  exact ⟨(names_distinct_iff dnsStyle_longName hother (by decide +kernel) hhash.1).mpr hnone.1,
    (names_distinct_iff dnsStyle_longName hlobby (by decide +kernel) hhash.2).mpr hnone.2⟩

/-- Two servers with the same Deployment, Service and ConfigMap. -/
theorem server_names_collide : ¬∀ n n' : String, DNSStyle n → DNSStyle n' → n ≠ n' →
    n.length ≤ 253 → n'.length ≤ 253 → HashesDiffer n n' → NamesDistinct n n' := by
  intro h
  have hspelled : DNSStyle spelledName := by
    refine ⟨chars_of_all (by decide +kernel), ⟨'a', by decide +kernel, by decide⟩,
      ⟨'6', by decide +kernel, by decide⟩⟩
  have hhash : HashesDiffer longName spelledName := by
    unfold HashesDiffer
    decide +kernel
  refine (h longName spelledName dnsStyle_longName hspelled (by decide +kernel)
    (by decide +kernel) (by decide +kernel) hhash).servers ?_
  have hl : dnsLabelMaxLength < ("minecraft-" ++ longName).length := by decide +kernel
  have hl' : ("minecraft-" ++ spelledName).length ≤ dnsLabelMaxLength := by decide +kernel
  refine (limitedName_eq_iff_spellsCut (by decide) dnsStyle_longName hl hl').mpr ⟨hl, hl', ?_⟩
  decide +kernel

end Minikura.Operator
