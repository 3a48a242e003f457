import Metap.Framework.Lockstep

/-!
# The positions a builder fills

A builder that appends to a list owns the positions it has filled: those after the length it found,
up to the length it left.  `Spans m P` says that `m` looks at nothing but the length of the list it
finds, and that whenever it succeeds its result stands in the relation `P` to the two lengths.
`SpansAlike m m' P` says the same of two builders that differ in the values they push only.  The
rules combine the spans of the parts; consecutive spans are consecutive half-open intervals, and
`ioc_union_eq_iff` says when parts that stay within their intervals fill the whole.
-/

namespace Metap.Builder

variable {ε ω α β : Type}

/-- The result of a run, the length it found and the length it left satisfy `P`. -/
structure SpanOf (P : α → ℕ → ℕ → Prop) (n : ℕ) (p : α × List ω) : Prop where
  le : n ≤ p.2.length
  holds : P p.1 n p.2.length

/-- From lists of one length both builders fail, or both return one result and lists of one length
again; the result and these lengths satisfy `P`. -/
def SpansAlike (m m' : Builder ε ω α) (P : α → ℕ → ℕ → Prop) : Prop :=
  ∀ ws ws', SameLength ws ws' → SameOutcome
    (fun p q => (p.1 = q.1 ∧ SameLength p.2 q.2) ∧ SpanOf P ws.length p) (m ws) (m' ws')

abbrev Spans (m : Builder ε ω α) (P : α → ℕ → ℕ → Prop) : Prop := SpansAlike m m P

variable {P : α → ℕ → ℕ → Prop} {Q : β → ℕ → ℕ → Prop} {m m' : Builder ε ω α}

theorem spans_pure {a : α} (h : ∀ n, P a n n) : Spans (pure a : Builder ε ω α) P :=
  fun _ _ hws => .ok ⟨⟨rfl, hws⟩, le_rfl, h _⟩

theorem spans_fail {e e' : ε} : SpansAlike (fail e : Builder ε ω α) (fail e') P :=
  fun _ _ _ => .error e e'

theorem spans_push (w w' : ω) : SpansAlike (push w : Builder ε ω ℕ) (push w') fun k i j =>
    k = i + 1 ∧ j = i + 1 := by
  intro ws ws' hws
  have hlength : ∀ (vs : List ω) v, (vs ++ [v]).length = vs.length + 1 := fun vs v =>
    List.length_append
  refine .ok ⟨⟨congrArg (· + 1) hws, ?_⟩, ?_, rfl, hlength ws w⟩
  · exact (hlength ws w).trans ((congrArg (· + 1) hws).trans (hlength ws' w').symm)
  · exact (Nat.le_succ _).trans (hlength ws w).ge

theorem spans_bind {f g : α → Builder ε ω β} (hm : SpansAlike m m' P)
    (hf : ∀ a, SpansAlike (f a) (g a) fun b j k => ∀ i ≤ j, P a i j → Q b i k) :
    SpansAlike (m >>= f) (m' >>= g) Q := by
  intro ws ws' hws
  refine (hm ws ws' hws).bind ?_
  rintro ⟨a, ws₁⟩ ⟨_, ws₁'⟩ ⟨⟨rfl, hws₁⟩, hle₁, hP⟩
  refine (hf a ws₁ ws₁' hws₁).mono ?_
  rintro ⟨b, ws₂⟩ ⟨b', ws₂'⟩ ⟨hsame, hle₂, hQ⟩
  exact ⟨hsame, hle₁.trans hle₂, hQ _ hle₁ hP⟩

theorem SpansAlike.mono {Q : α → ℕ → ℕ → Prop} (hm : SpansAlike m m' P)
    (h : ∀ a i j, i ≤ j → P a i j → Q a i j) : SpansAlike m m' Q := fun ws ws' hws =>
  (hm ws ws' hws).mono fun p _ hp => ⟨hp.1, hp.2.le, h p.1 _ _ hp.2.le hp.2.holds⟩

theorem spans_map {g : α → β} (hm : SpansAlike m m' P)
    (h : ∀ a i j, i ≤ j → P a i j → Q (g a) i j) : SpansAlike (g <$> m) (g <$> m') Q := by
  rw [map_eq_pure_bind, map_eq_pure_bind]
  exact spans_bind hm fun a => spans_pure fun n i hi hP => h a i n hi hP

/-- Parts within consecutive intervals fill the whole exactly when each fills its own. -/
theorem ioc_union_eq_iff {i j k : ℕ} (hij : i ≤ j) (hjk : j ≤ k) {A B : Set ℕ}
    (hA : A ⊆ Set.Ioc i j) (hB : B ⊆ Set.Ioc j k) :
    A ∪ B = Set.Ioc i k ↔ A = Set.Ioc i j ∧ B = Set.Ioc j k := by
  constructor
  · intro h
    refine ⟨hA.antisymm fun n hn => ?_, hB.antisymm fun n hn => ?_⟩
    · have hmem : n ∈ A ∪ B := h ▸ ⟨hn.1, hn.2.trans hjk⟩
      rcases hmem with hn' | hn'
      · exact hn'
      · exact absurd (hB hn').1 (not_lt.mpr hn.2)
    · have hmem : n ∈ A ∪ B := h ▸ ⟨lt_of_le_of_lt hij hn.1, hn.2⟩
      rcases hmem with hn' | hn'
      · exact absurd (hA hn').2 (not_le.mpr hn.1)
      · exact hn'
  · rintro ⟨rfl, rfl⟩
    exact Set.Ioc_union_Ioc_eq_Ioc hij hjk

end Metap.Builder
