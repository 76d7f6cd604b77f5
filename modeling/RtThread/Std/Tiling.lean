import RtThread.Std.Ring

/-!
# Blocks that tile a memory

A memory is divided into blocks. Each of them begins with a header that points
at the next block and back at the one before, so that the data of a block lie
between its header and the next one. An allocator inserts headers and removes
headers, and marks blocks as used.
-/

namespace RtThread.Std

/-- The block at `b` comes next after the one at `a`, whose header fits. Back
pointers need not be `kept` everywhere. -/
structure Neighbours (header : Nat) (kept : Nat → Prop) (links : Links Nat) (a b : Nat) :
    Prop where
  next : links.next a = b
  prev : kept b → links.prev b = a
  room : a + header ≤ b

/-- The blocks at `nodes` cover the memory from the first to the last of them. -/
def Tiles (header : Nat) (kept : Nat → Prop) (links : Links Nat) (nodes : List Nat) : Prop :=
  nodes.IsChain (Neighbours header kept links)

namespace Tiles

variable {header : Nat} {kept : Nat → Prop} {links links' : Links Nat} {nodes left right : List Nat}
  {a b n : Nat}

theorem pairwise (tiles : Tiles header kept links nodes) :
    nodes.Pairwise fun a b => a + header ≤ b := by
  induction nodes with
  | nil => exact .nil
  | cons a nodes ih =>
      cases nodes with
      | nil => exact List.pairwise_singleton ..
      | cons b nodes =>
          obtain ⟨touch, rest⟩ := List.isChain_cons_cons.mp tiles
          have later := ih rest
          refine List.pairwise_cons.mpr ⟨fun c member => ?_, later⟩
          rcases List.mem_cons.mp member with rfl | member
          · exact touch.room
          · have beyond := (List.pairwise_cons.mp later).1 c member
            have room := touch.room
            omega

theorem nodup (tiles : Tiles header kept links nodes) (positive : 0 < header) : nodes.Nodup := by
  refine tiles.pairwise.imp ?_
  intro a b room
  omega

theorem split : Tiles header kept links (left ++ a :: b :: right) ↔
    Tiles header kept links (left ++ [a]) ∧ Neighbours header kept links a b ∧
      Tiles header kept links (b :: right) :=
  List.isChain_append_cons_cons

/-- Pointers between blocks of the list are all that matters. -/
theorem congr (tiles : Tiles header kept links nodes)
    (next : ∀ x ∈ nodes, ∀ y ∈ nodes, x + header ≤ y → links'.next x = links.next x)
    (prev : ∀ x ∈ nodes, ∀ y ∈ nodes, x + header ≤ y → kept y → links'.prev y = links.prev y) :
    Tiles header kept links' nodes := by
  refine List.IsChain.imp_of_mem_imp ?_ tiles
  rintro x y here there ⟨points, back, room⟩
  refine ⟨(next x here y there room).trans points, fun keeps => ?_, room⟩
  exact (prev x here y there room keeps).trans (back keeps)

/-- The blocks before and behind two neighbours. -/
theorem bounds (tiles : Tiles header kept links (left ++ a :: b :: right)) :
    (∀ x ∈ left ++ [a], x ≤ a) ∧ a + header ≤ b ∧ ∀ y ∈ b :: right, b ≤ y := by
  have pairwise := List.pairwise_append.mp tiles.pairwise
  have inner := List.pairwise_cons.mp pairwise.2.1
  refine ⟨?_, inner.1 b (by simp), ?_⟩
  · intro x member
    rcases List.mem_append.mp member with member | member
    · exact Nat.le_of_add_right_le (pairwise.2.2 x member a (by simp))
    · exact Nat.le_of_eq (List.mem_singleton.mp member)
  · intro y member
    rcases List.mem_cons.mp member with rfl | member
    · exact Nat.le_refl y
    · exact Nat.le_of_add_right_le ((List.pairwise_cons.mp inner.2).1 y member)

/-- A header is inserted between two neighbours. -/
theorem insert (tiles : Tiles header kept links (left ++ a :: b :: right)) (positive : 0 < header)
    (first : Neighbours header kept links' a n) (second : Neighbours header kept links' n b)
    (next : ∀ x, x ≠ a → x ≠ n → links'.next x = links.next x)
    (prev : ∀ y, y ≠ n → y ≠ b → links'.prev y = links.prev y) :
    Tiles header kept links' (left ++ a :: n :: b :: right) := by
  obtain ⟨before, room, behind⟩ := tiles.bounds
  obtain ⟨tilesLeft, -, tilesRight⟩ := split.mp tiles
  have firstRoom := first.room
  have secondRoom := second.room
  refine split.mpr ⟨tilesLeft.congr ?_ ?_, first, List.isChain_cons_cons.mpr
    ⟨second, tilesRight.congr ?_ ?_⟩⟩
  · intro x here y there apart
    have upper := before y there
    exact next x (by omega) (by omega)
  · intro x here y there apart keeps
    have upper := before y there
    exact prev y (by omega) (by omega)
  · intro x here y there apart
    have lower := behind x here
    exact next x (by omega) (by omega)
  · intro x here y there apart keeps
    have lower := behind x here
    exact prev y (by omega) (by omega)

/-- A header is removed. -/
theorem remove (tiles : Tiles header kept links (left ++ a :: n :: b :: right))
    (positive : 0 < header) (points : links'.next a = b) (back : kept b → links'.prev b = a)
    (next : ∀ x, x ≠ a → x ≠ n → links'.next x = links.next x)
    (prev : ∀ y, y ≠ n → y ≠ b → links'.prev y = links.prev y) :
    Tiles header kept links' (left ++ a :: b :: right) := by
  obtain ⟨before, firstRoom, -⟩ := tiles.bounds
  obtain ⟨tilesLeft, -, tilesRight⟩ := split.mp tiles
  obtain ⟨second, tilesRight⟩ := List.isChain_cons_cons.mp tilesRight
  have secondRoom := second.room
  have behind : ∀ y ∈ b :: right, b ≤ y := by
    intro y member
    rcases List.mem_cons.mp member with rfl | member
    · exact Nat.le_refl y
    · exact Nat.le_of_add_right_le ((List.pairwise_cons.mp (pairwise tilesRight)).1 y member)
  refine split.mpr ⟨tilesLeft.congr ?_ ?_, ⟨points, back, by omega⟩,
    List.IsChain.imp_of_mem_imp ?_ tilesRight⟩
  · intro x here y there apart
    have upper := before y there
    exact next x (by omega) (by omega)
  · intro x here y there apart keeps
    have upper := before y there
    exact prev y (by omega) (by omega)
  · rintro x y here there ⟨onward, backward, apart⟩
    have lower := behind x here
    refine ⟨(next x (by omega) (by omega)).trans onward, fun keeps => ?_, apart⟩
    exact (prev y (by omega) (by omega)).trans (backward keeps)

/-- A block ends before any later one begins. -/
theorem next_le (tiles : Tiles header kept links nodes) (positive : 0 < header) (here : a ∈ nodes)
    (there : b ∈ nodes) (before : a < b) : links.next a ≤ b := by
  obtain ⟨left, right, rfl⟩ := List.append_of_mem here
  have pairwise := List.pairwise_append.mp tiles.pairwise
  rcases List.mem_append.mp there with member | member
  · have room := pairwise.2.2 b member a (by simp)
    omega
  · cases right with
    | nil =>
        rw [List.mem_singleton] at member
        omega
    | cons c right =>
        obtain ⟨-, touch, -⟩ := split.mp tiles
        rw [touch.next]
        rcases List.mem_cons.mp member with rfl | member
        · omega
        · exact tiles.bounds.2.2 b member

/-- A block ends where the memory does at the latest. -/
theorem next_le_last {last : Nat} (tiles : Tiles header kept links (nodes ++ [last]))
    (here : a ∈ nodes) : links.next a ≤ last := by
  obtain ⟨left, right, rfl⟩ := List.append_of_mem here
  cases right with
  | nil =>
      rw [List.append_assoc, List.cons_append, List.nil_append] at tiles
      exact Nat.le_of_eq (split.mp tiles).2.1.next
  | cons b right =>
      rw [List.append_assoc, List.cons_append, List.cons_append] at tiles
      obtain ⟨-, touch, rest⟩ := split.mp tiles
      rw [touch.next]
      cases right with
      | nil => exact Nat.le_of_add_right_le (List.isChain_cons_cons.mp rest).1.room
      | cons c right =>
          have pairwise := (List.pairwise_cons.mp (pairwise rest)).1 last (by simp)
          omega

/-- Every block takes up at least its header. -/
theorem length_le {first last : Nat} (tiles : Tiles header kept links (nodes ++ [last]))
    (begins : nodes.head? = some first) : first + header * nodes.length ≤ last := by
  induction nodes generalizing first with
  | nil => cases begins
  | cons a nodes ih =>
      obtain rfl : a = first := Option.some_inj.mp begins
      cases nodes with
      | nil => simpa using (List.isChain_cons_cons.mp tiles).1.room
      | cons b nodes =>
          obtain ⟨touch, rest⟩ := List.isChain_cons_cons.mp tiles
          have room := touch.room
          have later := ih rest rfl
          rw [List.length_cons, Nat.mul_succ]
          omega

/-- What lies between the first header and the last one lies in some block. -/
theorem exists_within {first last x : Nat} (tiles : Tiles header kept links (nodes ++ [last]))
    (begins : nodes.head? = some first) (lower : first ≤ x) (upper : x < last) :
    ∃ a ∈ nodes, a ≤ x ∧ x < links.next a := by
  induction nodes generalizing first with
  | nil => cases begins
  | cons a nodes ih =>
      obtain rfl : a = first := Option.some_inj.mp begins
      by_cases inside : x < links.next a
      · exact ⟨a, by simp, lower, inside⟩
      · cases nodes with
        | nil =>
            have touch := (List.isChain_cons_cons.mp tiles).1
            rw [touch.next] at inside
            exact absurd upper inside
        | cons b nodes =>
            obtain ⟨touch, rest⟩ := List.isChain_cons_cons.mp tiles
            rw [touch.next] at inside
            obtain ⟨c, member, within⟩ := ih rest rfl (Nat.le_of_not_lt inside)
            exact ⟨c, List.mem_cons_of_mem _ member, within⟩

/-- A place lies in one block only. -/
theorem within_unique {x : Nat} (tiles : Tiles header kept links nodes) (positive : 0 < header)
    (here : a ∈ nodes) (there : b ∈ nodes) (within : a ≤ x ∧ x < links.next a)
    (within' : b ≤ x ∧ x < links.next b) : a = b := by
  rcases Nat.lt_trichotomy a b with before | same | behind
  · have ends := tiles.next_le positive here there before
    omega
  · exact same
  · have ends := tiles.next_le positive there here behind
    omega

end Tiles

/-! ## Sizes -/

/-- The sum of a measure of each block and the next one. -/
def weigh (weight : Nat → Nat → Nat) : List Nat → Nat
  | a :: b :: nodes => weight a b + weigh weight (b :: nodes)
  | _ => 0

section

variable {weight weight' : Nat → Nat → Nat} {nodes left right : List Nat} {a b n : Nat}

theorem weigh_split (weight : Nat → Nat → Nat) (left right : List Nat) (a : Nat) :
    weigh weight (left ++ a :: right) = weigh weight (left ++ [a]) + weigh weight (a :: right) := by
  induction left with
  | nil => simp [weigh]
  | cons first left ih =>
      cases left with
      | nil => simp [weigh]
      | cons second left =>
          simp only [List.cons_append, weigh] at ih ⊢
          omega

theorem weigh_congr (same : ∀ x ∈ nodes.dropLast, ∀ y, weight' x y = weight x y) :
    weigh weight' nodes = weigh weight nodes := by
  induction nodes with
  | nil => rfl
  | cons a nodes ih =>
      cases nodes with
      | nil => rfl
      | cons b nodes =>
          rw [weigh, weigh, same a (by simp), ih]
          intro x member
          exact same x (by simp [member])

/-- The measure of the blocks is a sum over their headers. -/
theorem weigh_eq_sum {header : Nat} {kept : Nat → Prop} {links : Links Nat} {last : Nat}
    (tiles : Tiles header kept links (nodes ++ [last])) :
    weigh weight (nodes ++ [last]) = (nodes.map fun a => weight a (links.next a)).sum := by
  induction nodes with
  | nil => rfl
  | cons a nodes ih =>
      cases nodes with
      | nil =>
          have touch := (List.isChain_cons_cons.mp tiles).1
          simp [weigh, touch.next]
      | cons b nodes =>
          obtain ⟨touch, rest⟩ := List.isChain_cons_cons.mp tiles
          have later := ih rest
          simp only [List.cons_append, weigh, List.map_cons, List.sum_cons] at later ⊢
          rw [later, touch.next]

/-- The measure of one block changes. -/
theorem weigh_update (distinct : (left ++ a :: b :: right).Nodup)
    (same : ∀ x, x ≠ a → ∀ y, weight' x y = weight x y) :
    weigh weight' (left ++ a :: b :: right) + weight a b =
      weigh weight (left ++ a :: b :: right) + weight' a b := by
  obtain ⟨-, inner, apart⟩ := List.nodup_append.mp distinct
  have outside := (List.nodup_cons.mp inner).1
  have sameLeft : weigh weight' (left ++ [a]) = weigh weight (left ++ [a]) := by
    refine weigh_congr fun x member => same x ?_
    rw [List.dropLast_concat] at member
    exact apart x member a (by simp)
  have sameRight : weigh weight' (b :: right) = weigh weight (b :: right) := by
    refine weigh_congr fun x member => same x ?_
    rintro rfl
    exact outside (List.dropLast_subset _ member)
  rw [weigh_split, weigh_split weight, weigh, weigh, sameLeft, sameRight]
  omega

/-- A header is inserted, or, read the other way, removed. -/
theorem weigh_insert (distinct : (left ++ a :: n :: b :: right).Nodup)
    (same : ∀ x, x ≠ a → x ≠ n → ∀ y, weight' x y = weight x y) :
    weigh weight' (left ++ a :: n :: b :: right) + weight a b =
      weigh weight (left ++ a :: b :: right) + weight' a n + weight' n b := by
  obtain ⟨-, inner, apart⟩ := List.nodup_append.mp distinct
  obtain ⟨outside, inner⟩ := List.nodup_cons.mp inner
  have outside' := (List.nodup_cons.mp inner).1
  have sameLeft : weigh weight' (left ++ [a]) = weigh weight (left ++ [a]) := by
    refine weigh_congr fun x member => ?_
    rw [List.dropLast_concat] at member
    exact same x (apart x member a (by simp)) (apart x member n (by simp))
  have sameRight : weigh weight' (b :: right) = weigh weight (b :: right) := by
    refine weigh_congr fun x member => same x ?_ ?_
    · rintro rfl
      exact outside (List.mem_cons_of_mem _ (List.dropLast_subset _ member))
    · rintro rfl
      exact outside' (List.dropLast_subset _ member)
  rw [weigh_split, weigh_split weight, weigh, weigh, weigh, sameLeft, sameRight]
  omega

end

/-! ## Blocks that are not used -/

/-- No two neighbours are both unused. -/
def Separated (used : Nat → Bool) (nodes : List Nat) : Prop :=
  nodes.IsChain fun a b => used a = true ∨ used b = true

namespace Separated

variable {used used' : Nat → Bool} {nodes left right : List Nat} {a b n : Nat}

theorem mono (separated : Separated used nodes)
    (more : ∀ x ∈ nodes, used x = true → used' x = true) : Separated used' nodes := by
  refine List.IsChain.imp_of_mem_imp ?_ separated
  intro x y here there either
  exact either.imp (more x here) (more y there)

/-- Marking a block does not matter to lists without it. -/
theorem update {value : Bool} (separated : Separated used nodes) (outside : a ∉ nodes) :
    Separated (Function.update used a value) nodes := by
  refine separated.mono fun x member inUse => ?_
  rwa [Function.update_of_ne]
  rintro rfl
  exact outside member

theorem split : Separated used (left ++ a :: b :: right) ↔
    Separated used (left ++ [a]) ∧ (used a = true ∨ used b = true) ∧ Separated used (b :: right) :=
  List.isChain_append_cons_cons

/-- The lists before and behind a block. -/
theorem around (separated : Separated used (left ++ a :: right)) :
    Separated used left ∧ Separated used right :=
  ⟨separated.left_of_append, separated.right_of_append.tail⟩

/-- A block between blocks that are used. -/
theorem join (before : Separated used left) (behind : Separated used (b :: right))
    (last : ∀ x ∈ left.getLast?, used x = true) (next : used b = true) :
    Separated used (left ++ a :: b :: right) := by
  refine List.isChain_append.mpr ⟨before, List.isChain_cons_cons.mpr ⟨Or.inr next, behind⟩, ?_⟩
  intro x member y first
  exact Or.inl (last x member)

end Separated

/-- Marking one block changes what a filter finds by that block. -/
theorem filter_perm_cons {p p' : Nat → Bool} {nodes : List Nat} {a : Nat} (distinct : nodes.Nodup)
    (member : a ∈ nodes) (was : p a = false) (becomes : p' a = true)
    (same : ∀ x ∈ nodes, x ≠ a → p' x = p x) :
    (nodes.filter p').Perm (a :: nodes.filter p) := by
  obtain ⟨left, right, rfl⟩ := List.append_of_mem member
  obtain ⟨-, inner, apart⟩ := List.nodup_append.mp distinct
  have outside := (List.nodup_cons.mp inner).1
  have sameLeft : left.filter p' = left.filter p := by
    refine List.filter_congr fun x here => same x (by simp [here]) ?_
    exact apart x here a (by simp)
  have sameRight : right.filter p' = right.filter p := by
    refine List.filter_congr fun x here => same x (by simp [here]) ?_
    rintro rfl
    exact outside here
  simp only [List.filter_append, List.filter_cons, was, becomes, sameLeft, sameRight, if_true]
  exact List.perm_middle

end RtThread.Std
