import Mathlib

/-!
# A buffer that is written through a limit

What is put into a sink goes to the address of its cursor if that is not behind the last address
of the buffer. The cursor moves on in either case, so that it counts what did not fit as well.
-/

namespace RtThread.Std

universe u

structure Sink (α : Type u) where
  cursor : Nat
  /-- What has been stored and where, the last store first. -/
  stores : List (Nat × α)

namespace Sink

variable {α : Type u}

def put (last : Nat) (item : α) (sink : Sink α) : Sink α :=
  ⟨sink.cursor + 1,
    if sink.cursor ≤ last then (sink.cursor, item) :: sink.stores else sink.stores⟩

def puts (last : Nat) (items : List α) (sink : Sink α) : Sink α :=
  items.foldl (fun sink item => sink.put last item) sink

/-- What has been stored at an address last. -/
def read (sink : Sink α) (address : Nat) : Option α :=
  (sink.stores.find? fun store => store.1 = address).map Prod.snd

variable {last address : Nat} {item : α} {items items' : List α} {sink : Sink α}

@[simp] theorem put_cursor : (sink.put last item).cursor = sink.cursor + 1 := rfl

@[simp] theorem puts_nil : sink.puts last [] = sink := rfl

@[simp] theorem puts_cons :
    sink.puts last (item :: items) = (sink.put last item).puts last items := rfl

theorem puts_append :
    sink.puts last (items ++ items') = (sink.puts last items).puts last items' :=
  List.foldl_append

@[simp] theorem puts_cursor : (sink.puts last items).cursor = sink.cursor + items.length := by
  induction items generalizing sink with
  | nil => rfl
  | cons item items ih =>
      rw [puts_cons, ih, put_cursor, List.length_cons]
      omega

/-- Every store is an old one, or lies between the cursor and the end of the buffer. -/
theorem mem_puts {store : Nat × α} (member : store ∈ (sink.puts last items).stores) :
    store ∈ sink.stores ∨ sink.cursor ≤ store.1 ∧ store.1 ≤ last := by
  induction items generalizing sink with
  | nil => exact Or.inl member
  | cons item items ih =>
      rcases ih member with old | ⟨above, below⟩
      · unfold put at old
        dsimp only at old
        split at old
        · rename_i fits
          rcases List.mem_cons.mp old with rfl | old
          · exact Or.inr ⟨Nat.le_refl _, fits⟩
          · exact Or.inl old
        · exact Or.inl old
      · exact Or.inr ⟨Nat.le_of_succ_le above, below⟩

theorem put_read_of_ne (apart : address ≠ sink.cursor) :
    (sink.put last item).read address = sink.read address := by
  rw [put, read, read]
  split
  · rw [List.find?_cons_of_neg]
    simpa using apart.symm
  · rfl

theorem put_read_self (fits : sink.cursor ≤ last) :
    (sink.put last item).read sink.cursor = some item := by
  rw [put, if_pos fits, read, List.find?_cons_of_pos]
  · rfl
  · simp

/-- What is put behind an address leaves it alone. -/
theorem puts_read_of_lt (below : address < sink.cursor) :
    (sink.puts last items).read address = sink.read address := by
  induction items generalizing sink with
  | nil => rfl
  | cons item items ih =>
      rw [puts_cons, ih (Nat.lt_succ_of_lt below), put_read_of_ne (Nat.ne_of_lt below)]

/-- The buffer holds what has been put up to its end. -/
theorem puts_read {index : Nat} (inside : index < items.length)
    (fits : sink.cursor + index ≤ last) :
    (sink.puts last items).read (sink.cursor + index) = items[index]? := by
  induction items generalizing sink index with
  | nil => cases inside
  | cons item items ih =>
      cases index with
      | zero =>
          rw [puts_cons, Nat.add_zero, puts_read_of_lt (Nat.lt_succ_self _),
            put_read_self (by simpa using fits)]
          rfl
      | succ index =>
          have fits' : (sink.put last item).cursor + index ≤ last := by
            rw [put_cursor]
            omega
          have later := ih (Nat.lt_of_succ_lt_succ inside) fits'
          rw [put_cursor, Nat.add_assoc, Nat.add_comm 1] at later
          rw [puts_cons, later, List.getElem?_cons_succ]

end Sink

end RtThread.Std
