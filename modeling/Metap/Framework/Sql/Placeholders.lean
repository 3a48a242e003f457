import Metap.Framework.Spans
import Metap.Framework.Sql.Text

/-!
# The placeholders of a text

`refs s` is the set of the numbers `k` for which the placeholder `$k` occurs in the text `s`: a
dollar sign with at least one digit after it, and as many digits as follow.  A text put together
from pieces has the placeholders of its pieces (`refs_append`), provided that no piece starts with
a digit, which could lengthen the placeholder before it.  `Clean` is that proviso, and `Mentions`
carries it along: `Mentions s K` and `MentionsAll ss K` are what a generator's texts are specified
by.

A generator that binds its parameters as it goes owns the interval of positions it has filled.
`Covers b s i j` says that the placeholders of its text stay within that interval, and that `b` is
what it takes for them to be all of it.
-/

namespace Metap.Sql

/-- The numbers of the placeholders in a text, from left to right. -/
def placeholders : List Char → List ℕ
  | [] => []
  | c :: cs =>
    if c = '$' ∧ cs.takeWhile Char.isDigit ≠ [] then
      Nat.ofDigitChars 10 (cs.takeWhile Char.isDigit) 0 :: placeholders cs
    else placeholders cs

def refs (s : String) : Set ℕ := {k | k ∈ placeholders s.toList}

/-- The text does not start with a digit. -/
def Clean (s : String) : Prop := ∀ c ∈ s.toList.head?, c.isDigit = false

/-! ## Pieces -/

variable {ds : List Char}

theorem takeWhile_append_of_clean (cs : List Char) (h : ∀ c ∈ ds.head?, c.isDigit = false) :
    (cs ++ ds).takeWhile Char.isDigit = cs.takeWhile Char.isDigit := by
  have hds : ds.takeWhile Char.isDigit = [] := by
    cases ds with
    | nil => rfl
    | cons d ds => rw [List.takeWhile_cons_of_neg (by simp [h d rfl])]
  induction cs with
  | nil => exact hds
  | cons c cs ih =>
    rw [List.cons_append, List.takeWhile_cons, List.takeWhile_cons, ih]

theorem placeholders_append (cs : List Char) (h : ∀ c ∈ ds.head?, c.isDigit = false) :
    placeholders (cs ++ ds) = placeholders cs ++ placeholders ds := by
  induction cs with
  | nil => rfl
  | cons c cs ih =>
    rw [List.cons_append, placeholders, placeholders, takeWhile_append_of_clean cs h, ih]
    split <;> rfl

variable {s : String} {t : String}

theorem refs_append (ht : Clean t) : refs (s ++ t) = refs s ∪ refs t := by
  ext k
  simp only [refs, String.toList_append, placeholders_append _ ht, List.mem_append,
    Set.mem_ofPred_eq, Set.mem_union]

theorem Clean.append (hs : Clean s) (ht : Clean t) : Clean (s ++ t) := by
  unfold Clean at *
  rw [String.toList_append]
  cases hcs : s.toList with
  | nil => rwa [List.nil_append]
  | cons c cs =>
    rw [hcs] at hs
    exact hs

theorem placeholders_eq_nil {cs : List Char} (h : '$' ∉ cs) : placeholders cs = [] := by
  induction cs with
  | nil => rfl
  | cons c cs ih =>
    have hc : c ≠ '$' := fun hc => h (by simp [hc])
    rw [placeholders, if_neg (by simp [hc]), ih fun hcs => h (by simp [hcs])]

theorem refs_eq_empty (h : '$' ∉ s.toList) : refs s = ∅ := by
  unfold refs
  rw [placeholders_eq_nil h]
  simp

/-! ## Texts by their placeholders -/

/-- The placeholders of a text that may follow any other are `K`. -/
def Mentions (s : String) (K : Set ℕ) : Prop := Clean s ∧ refs s = K

/-- A text without a dollar sign that may follow any other. -/
def isPlain (s : String) : Bool :=
  s.toList.head?.all (fun c => !c.isDigit) && s.toList.all fun c => c ≠ '$'

abbrev Plain (s : String) : Prop := isPlain s = true

theorem plain_iff : Plain s ↔ Clean s ∧ '$' ∉ s.toList := by
  have hdollar : (∀ c ∈ s.toList, c ≠ '$') ↔ '$' ∉ s.toList :=
    ⟨fun h hmem => h '$' hmem rfl, fun h c hc hdollar => h (hdollar ▸ hc)⟩
  rw [← hdollar, Plain, isPlain, Bool.and_eq_true, List.all_eq_true]
  simp [Clean, Option.all_eq_true]

theorem Plain.mentions (h : Plain s) : Mentions s ∅ :=
  ⟨(plain_iff.mp h).1, refs_eq_empty (plain_iff.mp h).2⟩

theorem Plain.append (hs : Plain s) (ht : Plain t) : Plain (s ++ t) := by
  rw [plain_iff] at *
  refine ⟨hs.1.append ht.1, ?_⟩
  rw [String.toList_append, List.mem_append, not_or]
  exact ⟨hs.2, ht.2⟩

/-- What follows a plain text may start with a digit. -/
theorem Plain.append_of_notMem (hs : Plain s) (hne : s ≠ "")
    (ht : '$' ∉ t.toList) : Plain (s ++ t) := by
  rw [plain_iff] at *
  obtain ⟨hclean, hdollar⟩ := hs
  have hlist : s.toList ≠ [] := fun h => hne (String.toList_injective h)
  constructor
  · intro c hc
    rw [String.toList_append, List.head?_append_of_ne_nil _ hlist] at hc
    exact hclean c hc
  · rw [String.toList_append, List.mem_append, not_or]
    exact ⟨hdollar, ht⟩

theorem plain_empty : Plain "" := rfl

section

variable {s t : String} {K L : Set ℕ}

theorem Mentions.append (hs : Mentions s K) (ht : Mentions t L) : Mentions (s ++ t) (K ∪ L) :=
  ⟨hs.1.append ht.1, by rw [refs_append ht.1, hs.2, ht.2]⟩

theorem Mentions.after (hs : Mentions s K) (ht : Plain t) : Mentions (s ++ t) K := by
  have h := hs.append ht.mentions
  rwa [Set.union_empty] at h

theorem Plain.before (hs : Plain s) (ht : Mentions t K) : Mentions (s ++ t) K := by
  have h := hs.mentions.append ht
  rwa [Set.empty_union] at h

theorem Mentions.after_tail (hs : Mentions s K) (ht : Plain t) (hne : t ≠ "") {u : String}
    (hu : '$' ∉ u.toList) : Mentions (s ++ t ++ u) K := by
  rw [String.append_assoc]
  exact hs.after (ht.append_of_notMem hne hu)

theorem Mentions.paren (hs : Mentions s K) : Mentions ("(" ++ s ++ ")") K :=
  (Plain.before rfl hs).after rfl

end

/-- The text of a placeholder. -/
theorem mentions_param (k : ℕ) : Mentions ("$" ++ toString k) {k} := by
  have htext : ("$" ++ toString k).toList = '$' :: Nat.toDigits 10 k := by
    simp [String.toList_append, toString]
  constructor
  · intro c hc
    rw [htext] at hc
    cases hc
    decide
  have hdigit : ∀ c ∈ Nat.toDigits 10 k, c.isDigit = true :=
    fun c hc => Nat.isDigit_of_mem_toDigits (by omega) (by omega) hc
  have hwhile : (Nat.toDigits 10 k).takeWhile Char.isDigit = Nat.toDigits 10 k :=
    List.takeWhile_eq_self_iff.mpr hdigit
  have hnone : placeholders (Nat.toDigits 10 k) = [] :=
    placeholders_eq_nil fun h => absurd (hdigit _ h) (by decide)
  have hvalue : Nat.ofDigitChars 10 (Nat.toDigits 10 k) 0 = k :=
    Nat.ofDigitChars_ten_toDigits
  unfold refs
  rw [htext, placeholders, hwhile, if_pos ⟨rfl, Nat.toDigits_ne_nil⟩, hnone, hvalue]
  simp

/-! ## Joined texts -/

/-- The placeholders of several texts. -/
def refsOf (ss : List String) : Set ℕ := {k | ∃ s ∈ ss, k ∈ refs s}

@[simp]
theorem refsOf_nil : refsOf [] = ∅ := by simp [refsOf]

@[simp]
theorem refsOf_cons (s : String) (ss : List String) : refsOf (s :: ss) = refs s ∪ refsOf ss := by
  ext k
  simp [refsOf]

@[simp]
theorem refsOf_append (ss ts : List String) : refsOf (ss ++ ts) = refsOf ss ∪ refsOf ts := by
  ext k
  simp [refsOf, or_and_right, exists_or]

/-- The placeholders of texts that may follow any other are `K`. -/
def MentionsAll (ss : List String) (K : Set ℕ) : Prop := (∀ s ∈ ss, Clean s) ∧ refsOf ss = K

theorem mentionsAll_nil : MentionsAll [] ∅ := ⟨by simp, refsOf_nil⟩

variable {ss : List String} {K : Set ℕ}

theorem Mentions.cons {L : Set ℕ} (hs : Mentions s K)
    (hss : MentionsAll ss L) : MentionsAll (s :: ss) (K ∪ L) :=
  ⟨List.forall_mem_cons.mpr ⟨hs.1, hss.1⟩, by rw [refsOf_cons, hs.2, hss.2]⟩

theorem Mentions.singleton (hs : Mentions s K) : MentionsAll [s] K := by
  have h := hs.cons mentionsAll_nil
  rwa [Set.union_empty] at h

theorem MentionsAll.of_singleton (h : MentionsAll [s] K) : Mentions s K :=
  ⟨h.1 s (by simp), by simpa using h.2⟩

theorem MentionsAll.append {ts : List String} {L : Set ℕ} (hs : MentionsAll ss K)
    (ht : MentionsAll ts L) : MentionsAll (ss ++ ts) (K ∪ L) :=
  ⟨List.forall_mem_append.mpr ⟨hs.1, ht.1⟩, by rw [refsOf_append, hs.2, ht.2]⟩

/-- Texts written around texts keep their placeholders. -/
theorem MentionsAll.map {α : Type} {f g : α → String} {xs : List α} (h : MentionsAll (xs.map f) K)
    (hfg : ∀ x ∈ xs, ∀ L, Mentions (f x) L → Mentions (g x) L) : MentionsAll (xs.map g) K := by
  obtain ⟨hclean, rfl⟩ := h
  induction xs with
  | nil => exact ⟨by simp, rfl⟩
  | cons x xs ih =>
    obtain ⟨hx, hxs⟩ := List.forall_mem_cons.mp hfg
    obtain ⟨hcleanx, hcleanxs⟩ := List.forall_mem_cons.mp hclean
    rw [List.map_cons, List.map_cons, refsOf_cons]
    exact (hx _ ⟨hcleanx, rfl⟩).cons (ih hxs hcleanxs)

variable {sep : String}

theorem mentions_joinTail (hsep : Plain sep)
    (h : ∀ s ∈ ss, Clean s) : Mentions (joinTail sep ss) (refsOf ss) := by
  induction ss with
  | nil =>
    rw [refsOf_nil]
    exact plain_empty.mentions
  | cons s ss ih =>
    obtain ⟨hs, hss⟩ := List.forall_mem_cons.mp h
    rw [refsOf_cons]
    exact (hsep.before ⟨hs, rfl⟩).append (ih hss)

theorem MentionsAll.join (hsep : Plain sep) (h : MentionsAll ss K) : Mentions (join sep ss) K := by
  obtain ⟨hclean, rfl⟩ := h
  cases ss with
  | nil =>
    rw [refsOf_nil]
    exact plain_empty.mentions
  | cons s ss =>
    obtain ⟨hs, hss⟩ := List.forall_mem_cons.mp hclean
    rw [refsOf_cons]
    exact Mentions.append ⟨hs, rfl⟩ (mentions_joinTail hsep hss)

/-! ## Texts that own an interval -/

theorem Plain.mentions_ioc (h : Plain s) (i : ℕ) : Mentions s (Set.Ioc i i) := by
  rw [Set.Ioc_self]
  exact h.mentions

theorem mentions_param_ioc {i j k : ℕ} (hk : k = i + 1) (hj : j = i + 1) :
    Mentions ("$" ++ toString k) (Set.Ioc i j) := by
  subst hk hj
  have hone : Set.Ioc i (i + 1) = {i + 1} := by
    ext n
    simp only [Set.mem_Ioc, Set.mem_singleton_iff]
    omega
  rw [hone]
  exact mentions_param _

theorem Mentions.append_ioc {i j k : ℕ} (hs : Mentions s (Set.Ioc i j))
    (ht : Mentions t (Set.Ioc j k)) (hij : i ≤ j) (hjk : j ≤ k) :
    Mentions (s ++ t) (Set.Ioc i k) := by
  rw [← Set.Ioc_union_Ioc_eq_Ioc hij hjk]
  exact hs.append ht

theorem MentionsAll.append_ioc {ts : List String} {i j k : ℕ}
    (hs : MentionsAll ss (Set.Ioc i j)) (ht : MentionsAll ts (Set.Ioc j k)) (hij : i ≤ j)
    (hjk : j ≤ k) : MentionsAll (ss ++ ts) (Set.Ioc i k) := by
  rw [← Set.Ioc_union_Ioc_eq_Ioc hij hjk]
  exact hs.append ht

theorem mentionsAll_nil_ioc (i : ℕ) : MentionsAll [] (Set.Ioc i i) := by
  rw [Set.Ioc_self]
  exact mentionsAll_nil

/-- The placeholders of the text lie in the interval, and are all of it exactly when `b`. -/
def Covers (b : Prop) (s : String) (i j : ℕ) : Prop :=
  ∃ K, Mentions s K ∧ K ⊆ Set.Ioc i j ∧ (K = Set.Ioc i j ↔ b)

def CoversAll (b : Prop) (ss : List String) (i j : ℕ) : Prop :=
  ∃ K, MentionsAll ss K ∧ K ⊆ Set.Ioc i j ∧ (K = Set.Ioc i j ↔ b)

section

variable {b c : Prop} {s : String} {ss ts : List String} {i j k : ℕ}

theorem covers_of_mentions (h : Mentions s (Set.Ioc i j)) (hb : b) : Covers b s i j :=
  ⟨_, h, subset_rfl, by simp [hb]⟩

theorem coversAll_of_mentionsAll (h : MentionsAll ss (Set.Ioc i j)) (hb : b) : CoversAll b ss i j :=
  ⟨_, h, subset_rfl, by simp [hb]⟩

/-- A text without placeholders covers an interval only if that is empty. -/
theorem Plain.covers (h : Plain s) (hb : i = j ↔ b) (hij : i ≤ j) : Covers b s i j := by
  refine ⟨∅, h.mentions, Set.empty_subset _, ?_⟩
  rw [eq_comm, Set.Ioc_eq_empty_iff, ← hb]
  omega

theorem Covers.congr (h : Covers b s i j) (hbc : b ↔ c) : Covers c s i j := by
  obtain ⟨K, hs, hsub, hiff⟩ := h
  exact ⟨K, hs, hsub, hiff.trans hbc⟩

theorem CoversAll.congr (h : CoversAll b ss i j) (hbc : b ↔ c) : CoversAll c ss i j := by
  obtain ⟨K, hs, hsub, hiff⟩ := h
  exact ⟨K, hs, hsub, hiff.trans hbc⟩

theorem Covers.singleton (h : Covers b s i j) : CoversAll b [s] i j := by
  obtain ⟨K, hs, hsub, hiff⟩ := h
  exact ⟨K, hs.singleton, hsub, hiff⟩

theorem CoversAll.append (hs : CoversAll b ss i j) (ht : CoversAll c ts j k) (hij : i ≤ j)
    (hjk : j ≤ k) : CoversAll (b ∧ c) (ss ++ ts) i k := by
  obtain ⟨K, hK, hKsub, hKiff⟩ := hs
  obtain ⟨L, hL, hLsub, hLiff⟩ := ht
  refine ⟨K ∪ L, hK.append hL, ?_, ?_⟩
  · rw [← Set.Ioc_union_Ioc_eq_Ioc hij hjk]
    exact Set.union_subset_union hKsub hLsub
  · rw [Builder.ioc_union_eq_iff hij hjk hKsub hLsub, hKiff, hLiff]

/-- Joined texts in parentheses. -/
theorem CoversAll.parens (hsep : Plain sep) (h : CoversAll b ss i j) :
    Covers b ("(" ++ join sep ss ++ ")") i j := by
  obtain ⟨K, hK, hsub, hiff⟩ := h
  exact ⟨K, (hK.join hsep).paren, hsub, hiff⟩

end

section

open Builder

variable {ε ω α β : Type} {f : α → Builder ε ω String} {g : β → Builder ε ω String} {xs : List α}
  {ys : List β}

/-- A loop covers the interval when every round covers its own. -/
theorem spans_mapM_covers {b : α → Prop}
    (h : List.Forall₂ (fun x y => SpansAlike (f x) (g y) (Covers (b x))) xs ys) :
    SpansAlike (xs.mapM f) (ys.mapM g) (CoversAll (∀ x ∈ xs, b x)) := by
  induction h with
  | nil => exact spans_pure fun n => coversAll_of_mentionsAll (mentionsAll_nil_ioc n) (by simp)
  | cons hhead _ ih =>
    rw [List.mapM_cons, List.mapM_cons]
    refine spans_bind hhead fun s => spans_bind ih fun ss => ?_
    refine spans_pure fun k j hjk hss i hij hs => ?_
    exact (hs.singleton.append hss hij hjk).congr (by simp)

/-- A loop whose rounds each mention all they bind. -/
theorem spans_mapM_mentions
    (h : List.Forall₂ (fun x y => SpansAlike (f x) (g y) fun s i j => Mentions s (Set.Ioc i j))
      xs ys) : SpansAlike (xs.mapM f) (ys.mapM g) fun ss i j => MentionsAll ss (Set.Ioc i j) := by
  have hcovers := spans_mapM_covers (b := fun _ => True) (h.imp fun x y hxy =>
    hxy.mono fun s i j _ hs => covers_of_mentions hs trivial)
  refine hcovers.mono fun ss i j _ hss => ?_
  obtain ⟨K, hK, _, hiff⟩ := hss
  rwa [hiff.mpr fun _ _ => trivial] at hK

end

end Metap.Sql
