import Metap.Framework.Strings

/-!
# Topic patterns

A handler is registered for a pattern of words: `*` stands for one word of a routing key, `#` for
any number of them, and every other word for itself.  `topicMatches_iff` says that the matcher,
which backtracks over what a `#` may take, accepts exactly the keys whose words can be dealt out to
the words of the pattern in order.
-/

namespace Metap.Eventbus

def matchesSegments : List String → List String → Bool
  | [], key => key.isEmpty
  | head :: rest, key =>
    if head = "#" then
      rest.isEmpty || (List.range (key.length + 1)).any fun i => matchesSegments rest (key.drop i)
    else if head = "*" then !key.isEmpty && matchesSegments rest key.tail
    else key.head? = some head && matchesSegments rest key.tail

def topicMatches (pattern routingKey : String) : Bool :=
  matchesSegments (Strings.split pattern '.') (Strings.split routingKey '.')

/-- The words of a key that a word of a pattern may take. -/
def Takes (word : String) (taken : List String) : Prop :=
  if word = "#" then True
  else if word = "*" then taken.length = 1
  else taken = [word]

/-- The words of a key can be dealt out to the words of a pattern. -/
def Splits (pattern key : List String) : Prop :=
  ∃ parts : List (List String), parts.flatten = key ∧ List.Forall₂ Takes pattern parts

theorem splits_cons {word : String} {rest key : List String} : Splits (word :: rest) key ↔
    ∃ taken left, taken ++ left = key ∧ Takes word taken ∧ Splits rest left := by
  constructor
  · rintro ⟨parts, rfl, hparts⟩
    obtain ⟨taken, parts, htaken, hrest, rfl⟩ := List.forall₂_cons_left_iff.mp hparts
    exact ⟨taken, parts.flatten, rfl, htaken, parts, rfl, hrest⟩
  · rintro ⟨taken, _, rfl, htaken, parts, rfl, hparts⟩
    exact ⟨taken :: parts, rfl, .cons htaken hparts⟩

theorem matchesSegments_iff (pattern key : List String) :
    matchesSegments pattern key = true ↔ Splits pattern key := by
  induction pattern generalizing key with
  | nil =>
    constructor
    · exact fun h => ⟨[], (List.isEmpty_iff.mp h).symm, .nil⟩
    · rintro ⟨_, rfl, ⟨⟩⟩
      rfl
  | cons word rest ih =>
    simp only [matchesSegments, splits_cons, Takes]
    split
    · simp only [Bool.or_eq_true, List.isEmpty_iff, List.any_eq_true, List.mem_range, ih, true_and]
      constructor
      · rintro (rfl | ⟨i, -, hrest⟩)
        · exact ⟨key, [], List.append_nil key, [], rfl, .nil⟩
        · exact ⟨key.take i, key.drop i, List.take_append_drop i key, hrest⟩
      · rintro ⟨taken, left, rfl, hrest⟩
        exact .inr ⟨taken.length, by simp, by rwa [List.drop_left]⟩
    -- every other word takes one word, which is the first of the key
    · cases key with
      | nil => split <;> simp
      | cons first left => split <;> simp [ih, List.length_eq_one_iff, eq_comm (a := first)]

/-- A key is matched exactly when its words can be dealt out to those of the pattern. -/
theorem topicMatches_iff (pattern routingKey : String) : topicMatches pattern routingKey = true ↔
    Splits (Strings.split pattern '.') (Strings.split routingKey '.') :=
  matchesSegments_iff _ _

example : topicMatches "crm.#.#.deleted" "crm.deleted" = true := by decide

end Metap.Eventbus
