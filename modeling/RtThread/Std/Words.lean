import Mathlib

/-!
# Words in a row

A memory gives each place a word. Some words are stored from a place on, and loaded again; what is
stored elsewhere does not change them.
-/

namespace RtThread.Std

universe u

variable {Word : Type u} {memory memory' : Nat → Word} {words : List Word} {place other count : Nat}

/-- Store some words from a place on. -/
def storeWords (memory : Nat → Word) (place : Nat) (words : List Word) : Nat → Word :=
  fun i => if place ≤ i then words.getD (i - place) (memory i) else memory i

/-- Load some words from a place on. -/
def loadWords (memory : Nat → Word) (place count : Nat) : List Word :=
  (List.range' place count).map memory

/-- Two memories have the same words at the places of a region. -/
def SameWords (memory memory' : Nat → Word) (low high : Nat) : Prop :=
  ∀ i, low ≤ i → i < high → memory i = memory' i

theorem storeWords_at {i : Nat} (inside : i < words.length) :
    storeWords memory place words (place + i) = words[i] := by
  rw [storeWords, if_pos (Nat.le_add_right _ _), Nat.add_sub_cancel_left]
  exact List.getD_eq_getElem _ _ inside

theorem storeWords_elsewhere {i : Nat} (outside : i < place ∨ place + words.length ≤ i) :
    storeWords memory place words i = memory i := by
  rw [storeWords]
  split
  · exact List.getD_eq_default _ _ (by omega)
  · rfl

/-- A region apart from the words that are stored stays the same. -/
theorem storeWords_same {low high : Nat} (apart : high ≤ place ∨ place + words.length ≤ low) :
    SameWords memory (storeWords memory place words) low high := by
  intro i lower upper
  rw [storeWords_elsewhere (by omega)]

theorem SameWords.trans {memory'' : Nat → Word} {low high : Nat}
    (same : SameWords memory memory' low high) (same' : SameWords memory' memory'' low high) :
    SameWords memory memory'' low high :=
  fun i lower upper => (same i lower upper).trans (same' i lower upper)

theorem SameWords.mono {low high low' high' : Nat} (same : SameWords memory memory' low high)
    (lower : low ≤ low') (upper : high' ≤ high) : SameWords memory memory' low' high' :=
  fun i above below => same i (lower.trans above) (below.trans_le upper)

@[simp] theorem length_loadWords : (loadWords memory place count).length = count := by
  rw [loadWords, List.length_map, List.length_range']

theorem loadWords_same (same : SameWords memory memory' place (place + count)) :
    loadWords memory place count = loadWords memory' place count := by
  apply List.map_congr_left
  intro i member
  obtain ⟨lower, upper⟩ := List.mem_range'_1.mp member
  exact same i lower upper

/-- What has been stored is loaded. -/
theorem loadWords_storeWords :
    loadWords (storeWords memory place words) place words.length = words := by
  apply List.ext_getElem
  · exact length_loadWords
  · intro i left right
    simp only [loadWords, List.getElem_map, List.getElem_range', Nat.one_mul]
    exact storeWords_at right

theorem loadWords_add {count' : Nat} : loadWords memory place (count + count') =
    loadWords memory place count ++ loadWords memory (place + count) count' := by
  rw [loadWords, loadWords, loadWords, ← List.map_append, List.range'_append_1]

/-- The first words, and those behind them. -/
theorem loadWords_split (below : count ≤ words.length)
    (loaded : loadWords memory place words.length = words) :
    loadWords memory place count = words.take count ∧
      loadWords memory (place + count) (words.length - count) = words.drop count := by
  have whole : loadWords memory place count ++
      loadWords memory (place + count) (words.length - count) =
        words.take count ++ words.drop count := by
    rw [← loadWords_add, Nat.add_sub_cancel' below, loaded, List.take_append_drop]
  apply List.append_inj whole
  rw [length_loadWords, List.length_take, Nat.min_eq_left below]

end RtThread.Std
