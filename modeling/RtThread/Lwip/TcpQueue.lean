import RtThread.Lwip.TcpReceive
import RtThread.Std.Sequence

/-!
# The queue of segments out of sequence

The data of a segment is a part of the stream that the peer sends, and its sequence number is the
number of the place in the stream. The segments of the queue come one behind the other.
-/

namespace RtThread.Lwip

open RtThread.Std

/-! ## Comparing places -/

section

variable {base : BitVec 32} {a b : Nat}

theorem seqLt_iff (near : Comparable 32 a b) : seqLt (serial base a) (serial base b) ↔ a < b := by
  rw [seqLt, BitVec.slt_iff_toInt_lt, serial_sub_toInt near, BitVec.toInt_zero]
  omega

theorem seqLeq_iff (near : Comparable 32 a b) : seqLeq (serial base a) (serial base b) ↔ a ≤ b := by
  rw [seqLeq, BitVec.sle_iff_toInt_le, serial_sub_toInt near, BitVec.toInt_zero]
  omega

theorem seqGt_iff (near : Comparable 32 a b) : seqGt (serial base a) (serial base b) ↔ b < a := by
  rw [seqGt, BitVec.slt_iff_toInt_lt, serial_sub_toInt near, BitVec.toInt_zero]
  omega

theorem seqGeq_iff (near : Comparable 32 a b) : seqGeq (serial base a) (serial base b) ↔ b ≤ a := by
  rw [seqGeq, BitVec.sle_iff_toInt_le, serial_sub_toInt near, BitVec.toInt_zero]
  omega

/-- The number in front of a place, where there may be none. -/
theorem seqLeq_pred_iff (near : Comparable 32 (a + 1) b) :
    seqLeq (serial base a) (serial base b - 1) ↔ a < b := by
  have shift : serial base a - (serial base b - 1) = serial base (a + 1) - serial base b := by
    rw [serial_add, sub_sub_eq_add_sub, BitVec.ofNat_eq_ofNat]
  rw [seqLeq, shift, BitVec.sle_iff_toInt_le, serial_sub_toInt near, BitVec.toInt_zero]
  omega

theorem seqGeq_succ_iff (near : Comparable 32 a (b + 1)) :
    seqGeq (serial base a) (serial base b + 1) ↔ b < a := by
  have shift : serial base b + 1 = serial base (b + 1) := by rw [serial_add, BitVec.ofNat_eq_ofNat]
  rw [shift, seqGeq_iff near]
  omega

end

/-! ## Parts of the stream -/

/-- `count` bytes from a place on. -/
def slice (stream : List (BitVec 8)) (place count : Nat) : List (BitVec 8) :=
  (stream.drop place).take count

section

variable {stream : List (BitVec 8)} {place count count' : Nat}

@[simp] theorem slice_zero : slice stream place 0 = [] := List.take_zero

theorem slice_add : slice stream place (count + count') =
    slice stream place count ++ slice stream (place + count) count' := by
  rw [slice, slice, slice, List.take_add, List.drop_drop]

theorem take_slice (below : count' ≤ count) :
    (slice stream place count).take count' = slice stream place count' := by
  rw [slice, slice, List.take_take, Nat.min_eq_left below]

theorem drop_slice : (slice stream place count).drop count' =
    slice stream (place + count') (count - count') := by
  rw [slice, slice, List.drop_take, List.drop_drop]

theorem take_append_slice : stream.take place ++ slice stream place count =
    stream.take (place + count) := List.take_add.symm

end

variable {stream : List (BitVec 8)} {base : BitVec 32} {place high low : Nat}

/-- The segment has the bytes of the stream from `place` on, and its FIN ends the stream. -/
structure TcpSeg.Carries (stream : List (BitVec 8)) (base : BitVec 32) (place : Nat)
    (seg : TcpSeg) : Prop where
  seqno : seg.seqno = serial base place
  len : seg.p.bytes.length = seg.len.toNat
  bytes : seg.p.bytes = slice stream place seg.len.toNat
  within : place + seg.len.toNat ≤ stream.length
  fin : seg.fin = true → place + seg.len.toNat = stream.length
  syn : seg.syn = false
  sound : seg.p.Sound
  chain : seg.p ≠ []

namespace TcpSeg.Carries

variable {seg : TcpSeg}

theorem tcplen (carries : seg.Carries stream base place) :
    seg.tcplen = seg.len.toNat + if seg.fin then 1 else 0 := by
  rw [TcpSeg.tcplen, carries.syn, Bool.or_false]

theorem tcplen_short (carries : seg.Carries stream base place)
    (room : seg.len.toNat + 1 < 2 ^ 16) : seg.tcplen < 2 ^ 16 := by
  rw [carries.tcplen]
  split <;> omega

theorem tcplen_within (carries : seg.Carries stream base place) :
    place + seg.tcplen ≤ stream.length + 1 ∧
      (seg.fin = false → place + seg.tcplen ≤ stream.length) := by
  have within := carries.within
  rw [carries.tcplen]
  constructor
  · split <;> omega
  · intro open_
    simpa [open_] using within

theorem dataEnd (carries : seg.Carries stream base place) :
    seg.dataEnd = serial base (place + seg.len.toNat) := by
  rw [TcpSeg.dataEnd, carries.seqno, serial_add, BitVec.ofNat_toNat]

theorem tcpEnd (carries : seg.Carries stream base place) (short : seg.tcplen < 2 ^ 16) :
    seg.tcpEnd = serial base (place + seg.tcplen) := by
  rw [TcpSeg.tcpEnd, carries.seqno, serial_add, TcpSeg.tcplen16, BitVec.setWidth_ofNat_of_le_of_lt
    (by decide) short]

theorem short (carries : seg.Carries stream base place) : seg.p.bytes.length < 2 ^ 16 := by
  rw [carries.len]
  exact seg.len.isLt

/-- Cut the data behind some bytes. -/
theorem cut {len : BitVec 16} (carries : seg.Carries stream base place) (less : len ≤ seg.len)
    (fin : seg.fin = false ∨ len = seg.len) :
    ∃ p, pbufRealloc seg.p len = some p ∧ { seg with len, p }.Carries stream base place := by
  obtain ⟨p, cut, sound, chain, bytes⟩ := pbufRealloc_spec len carries.sound
    carries.chain carries.short
  rw [BitVec.le_def] at less
  have within := carries.within
  refine ⟨p, cut, carries.seqno, ?_, ?_, ?_, ?_, carries.syn, sound, chain⟩
  · change p.bytes.length = len.toNat
    rw [bytes, List.length_take, carries.len, Nat.min_eq_left less]
  · change p.bytes = slice stream place len.toNat
    rw [bytes, carries.bytes, take_slice less]
  · change place + len.toNat ≤ stream.length
    omega
  · intro finish
    rcases fin with open_ | rfl
    · rw [open_] at finish
      cases finish
    · exact carries.fin finish

theorem shorten {len : BitVec 16} (carries : seg.Carries stream base place)
    (open_ : seg.fin = false) (less : len ≤ seg.len) :
    ∃ p, seg.shorten len = some { seg with len, p } ∧
      { seg with len, p }.Carries stream base place := by
  obtain ⟨p, cut, carried⟩ := carries.cut less (.inl open_)
  have whole : (if seg.syn then len - 1 else len) = len := by rw [carries.syn]; rfl
  exact ⟨p, by rw [TcpSeg.shorten, whole, cut, Option.map_some], carried⟩

end TcpSeg.Carries

/-- The queue from the place `low` on. Only a FIN has no data, and nothing comes behind it. -/
inductive Queued (stream : List (BitVec 8)) (base : BitVec 32) (high : Nat) :
    Nat → List TcpSeg → Prop where
  | nil {low : Nat} : Queued stream base high low []
  | cons {low place : Nat} {seg : TcpSeg} {rest : List TcpSeg} (lower : low ≤ place) (upper : place ≤ high)
      (carries : seg.Carries stream base place) (filled : seg.len = 0 → seg.fin = true)
      (last : seg.fin = true → rest = [])
      (queued : Queued stream base high (place + seg.len.toNat) rest) :
      Queued stream base high low (seg :: rest)

namespace Queued

variable {seg : TcpSeg} {queue rest : List TcpSeg}

theorem lower {low' : Nat} (queued : Queued stream base high low queue) (below : low' ≤ low) :
    Queued stream base high low' queue := by
  cases queued with
  | nil => exact .nil
  | cons lower upper carries filled last queued =>
      exact .cons (below.trans lower) upper carries filled last queued

theorem raise {high' : Nat} (queued : Queued stream base high low queue) (above : high ≤ high') :
    Queued stream base high' low queue := by
  induction queued with
  | nil => exact .nil
  | cons lower upper carries filled last _ ih =>
      exact .cons lower (upper.trans above) carries filled last ih

/-- A segment at a place goes in front of a queue that begins behind it. -/
theorem single (lower : low ≤ place) (upper : place ≤ high)
    (carries : seg.Carries stream base place) (filled : seg.len = 0 → seg.fin = true) :
    Queued stream base high low [seg] :=
  .cons lower upper carries filled (fun _ => rfl) .nil

end Queued

/-! ## A segment is put into the queue -/

section

variable {cseg seg : TcpSeg} {queue : List TcpSeg}

/-- A segment that has received the FIN of one that ends where it ends. -/
theorem TcpSeg.Carries.finish {next : TcpSeg} {place' : Nat} (carries : cseg.Carries stream base place)
    (other : next.Carries stream base place')
    (reaches : place' + next.len.toNat ≤ place + cseg.len.toNat) :
    { cseg with fin := cseg.fin || next.fin }.Carries stream base place := by
  refine { carries with fin := fun finish => ?_ }
  rcases (Bool.or_eq_true _ _).mp finish with own | copied
  · exact carries.fin own
  · have last := other.fin copied
    have within := carries.within
    change place + cseg.len.toNat = stream.length
    omega

theorem coverOoseq_spec (carries : cseg.Carries stream base place) (front : place ≤ low)
    (queued : Queued stream base high low queue) (close : high < place + 2 ^ 20) :
    ∃ fin rest, cseg.coverOoseq queue = ({ cseg with fin }, rest) ∧
      { cseg with fin }.Carries stream base place ∧ (fin = true → cseg.fin = true ∨ rest = []) ∧
      (cseg.fin = true → fin = true) ∧ rest <:+ queue ∧ Queued stream base high low rest ∧
      ∀ next ∈ rest.head?, ¬ seqGeq cseg.dataEnd next.dataEnd := by
  induction queue generalizing cseg low with
  | nil => exact ⟨cseg.fin, [], rfl, carries, .inl, id, List.suffix_rfl, .nil, by simp⟩
  | cons next rest ih =>
      cases queued with
      | @cons _ place' _ _ lower upper carries' filled last queued =>
      have short := next.len.isLt
      have short' := cseg.len.isLt
      have near : Comparable 32 (place + cseg.len.toNat) (place' + next.len.toNat) :=
        ⟨by omega, by omega⟩
      rw [TcpSeg.coverOoseq]
      split
      · rename_i covered
        rw [carries.dataEnd, carries'.dataEnd, seqGeq_iff near] at covered
        obtain ⟨fin, rest', same, carried, copied, kept, suffix, queued', stop⟩ :=
          ih (carries.finish carries' covered) (front.trans (lower.trans (Nat.le_add_right _ _)))
            queued
        refine ⟨fin, rest', same, carried, fun finish => ?_, fun own => kept (by simp [own]),
          suffix.trans (List.suffix_cons _ _), queued'.lower (by omega), stop⟩
        rcases copied finish with own | none_
        · rcases (Bool.or_eq_true _ _).mp own with own | other
          · exact .inl own
          · obtain rfl := last other
            exact .inr (List.suffix_nil.mp suffix)
        · exact .inr none_
      · rename_i uncovered
        refine ⟨cseg.fin, next :: rest, rfl, carries, .inl, id, List.suffix_rfl,
          .cons lower upper carries' filled last queued, ?_⟩
        rintro _ ⟨⟩
        exact uncovered

/-- The data of a segment without FIN ends where another place begins, at the latest. -/
theorem cutAt_spec {place' : Nat} (carries : seg.Carries stream base place) (open_ : seg.fin = false)
    (filled : seg.len ≠ 0) (behind : place < place') (close : place' < place + 2 ^ 20) :
    ∃ seg', seg.cutAt (serial base place') = some seg' ∧ seg'.Carries stream base place ∧
      seg'.fin = false ∧ seg'.len ≠ 0 ∧ place + seg'.len.toNat ≤ place' := by
  have short := seg.len.isLt
  have near : Comparable 32 (place + seg.len.toNat) place' := ⟨by omega, by omega⟩
  rw [TcpSeg.cutAt, carries.dataEnd]
  split
  · rename_i overlaps
    rw [seqGt_iff near] at overlaps
    have len : ((serial base place' - seg.seqno).setWidth 16).toNat = place' - place := by
      rw [carries.seqno, serial_sub_toNat behind.le (by omega) (by decide)]
    have less : (serial base place' - seg.seqno).setWidth 16 ≤ seg.len := by
      rw [BitVec.le_def, len]
      omega
    obtain ⟨p, cut, carried⟩ := carries.cut less (.inl open_)
    refine ⟨_, Option.map_eq_some_iff.mpr ⟨p, cut, rfl⟩, carried, open_, fun none_ => ?_, ?_⟩
    · have zero : BitVec.toNat _ = 0 := congrArg BitVec.toNat none_
      rw [len] at zero
      omega
    · rw [len]
      omega
  · rename_i apart
    rw [seqGt_iff near] at apart
    exact ⟨seg, rfl, carries, open_, filled, by omega⟩

/-- `tcp_oos_insert_segment` puts a segment in front of those behind it. -/
theorem tcpOosInsertSegment_spec (carries : cseg.Carries stream base place)
    (filled : cseg.len = 0 → cseg.fin = true) (upper : place ≤ high)
    (queued : Queued stream base high place queue) (close : high < place + 2 ^ 20)
    (longest : ∀ next ∈ queue, next.seqno = cseg.seqno → next.len ≤ cseg.len) :
    ∃ queue', tcpOosInsertSegment cseg queue = some queue' ∧
      Queued stream base high place queue' := by
  rw [tcpOosInsertSegment]
  split
  · exact ⟨_, rfl, .single le_rfl upper carries filled⟩
  · rename_i open_
    rw [Bool.not_eq_true] at open_
    obtain ⟨fin, rest, same, carried, copied, -, suffix, queued', stop⟩ :=
      coverOoseq_spec carries le_rfl queued close
    rw [same]
    cases queued' with
    | nil => exact ⟨_, rfl, .single le_rfl upper carried fun none_ => by simp [filled none_] at open_⟩
    | @cons _ place' next rest lower upper' carries' filled' last queued' =>
        obtain rfl : fin = false := by
          rw [← Bool.not_eq_true]
          intro finish
          rcases copied finish with own | none_
          · simp [own] at open_
          · cases none_
        have short := next.len.isLt
        have short' := cseg.len.isLt
        have near : Comparable 32 (place + cseg.len.toNat) (place' + next.len.toNat) :=
          ⟨by omega, by omega⟩
        have ends := stop next (by simp)
        rw [carries.dataEnd, carries'.dataEnd, seqGeq_iff near] at ends
        have behind : place < place' := by
          refine lt_of_le_of_ne lower fun equal => ?_
          subst equal
          have less := longest next (suffix.subset List.mem_cons_self)
            (carries'.seqno.trans carries.seqno.symm)
          rw [BitVec.le_def] at less
          omega
        have some_ : cseg.len ≠ 0 := fun none_ => by simp [filled none_] at open_
        obtain ⟨seg', cut, carried', open', some', room⟩ :=
          cutAt_spec carried rfl some_ behind (by omega)
        rw [← carries'.seqno] at cut
        refine ⟨seg' :: next :: rest, ?_, ?_⟩
        · change (TcpSeg.cutAt _ next.seqno).map _ = _
          rw [cut]
          rfl
        · refine .cons le_rfl upper carried' (fun none_ => absurd none_ some') (fun finish => ?_)
            (.cons room upper' carries' filled' last queued')
          simp [open'] at finish

/-- Where the comparison of plain numbers says that a segment leaves the window, it does. It may
say so by mistake when the numbers of the window wrap around and those of the segment do not. -/
def TcpPcb.EdgeAgrees (pcb : TcpPcb) (inseg : TcpSeg) : Prop :=
  inseg.tcpEnd > pcb.rightEdge → seqGt inseg.tcpEnd pcb.rightEdge = true

instance (pcb : TcpPcb) (inseg : TcpSeg) : Decidable (pcb.EdgeAgrees inseg) :=
  inferInstanceAs (Decidable (_ → _))

variable {pcb : TcpPcb} {inseg next : TcpSeg} {nxt place' : Nat}

theorem rightEdge_eq (rcvNxt : pcb.rcvNxt = serial base nxt) :
    pcb.rightEdge = serial base (nxt + pcb.rcvWnd.toNat) := by
  rw [TcpPcb.rightEdge, rcvNxt, serial_add, BitVec.ofNat_toNat]

/-- A segment goes behind the last one, as far as the window reaches. -/
theorem appendOoseq_spec (rcvNxt : pcb.rcvNxt = serial base nxt) (reached : nxt ≤ place)
    (inWindow : place < nxt + pcb.rcvWnd.toNat) (carries : inseg.Carries stream base place)
    (filled : inseg.len = 0 → inseg.fin = true) (short : inseg.tcplen < 2 ^ 16)
    (agrees : pcb.EdgeAgrees inseg) (carries' : next.Carries stream base place')
    (open' : next.fin = false) (filled' : next.len ≠ 0) (behind : place' < place)
    (close : place < place' + 2 ^ 20) (lower : low ≤ place') (upper : place ≤ high) :
    ∃ queue, pcb.appendOoseq inseg next = some queue ∧ Queued stream base high low queue := by
  obtain ⟨next', cut, carried', open_, some', room⟩ :=
    cutAt_spec carries' open' filled' behind close
  rw [← carries.seqno] at cut
  have first {last : TcpSeg} (carried : last.Carries stream base place)
      (filled : last.len = 0 → last.fin = true) : Queued stream base high low [next', last] := by
    refine .cons lower (behind.le.trans upper) carried' (fun none_ => absurd none_ some')
      (fun finish => ?_) (.single room upper carried filled)
    rw [open_] at finish
    cases finish
  have wnd := pcb.rcvWnd.isLt
  have edge := rightEdge_eq rcvNxt
  rw [TcpPcb.appendOoseq, cut]
  simp only [Option.bind_eq_bind, Option.bind_some]
  split
  · rename_i beyond
    have leaves := agrees beyond
    rw [edge, carries.tcpEnd short, seqGt_iff ⟨by omega, by omega⟩, carries.tcplen] at leaves
    have len : ((pcb.rightEdge - inseg.seqno).setWidth 16).toNat =
        nxt + pcb.rcvWnd.toNat - place := by
      rw [edge, carries.seqno, serial_sub_toNat inWindow.le (by omega) (by decide)]
    have less : (pcb.rightEdge - inseg.seqno).setWidth 16 ≤ inseg.len := by
      rw [BitVec.le_def, len]
      split at leaves <;> omega
    have unfinished : { inseg with fin := false }.Carries stream base place :=
      { carries with fin := fun finish => by cases finish }
    obtain ⟨p, cut, carried⟩ := unfinished.cut less (.inl rfl)
    change pbufRealloc inseg.p _ = some p at cut
    have ends : TcpSeg.tcpEnd ⟨inseg.seqno, (pcb.rightEdge - inseg.seqno).setWidth 16, inseg.syn,
        false, p⟩ = pcb.rightEdge := by
      rw [carried.tcpEnd (by rw [carried.tcplen]; exact BitVec.isLt _), carried.tcplen, edge]
      change serial base (place + BitVec.toNat _) = _
      rw [edge] at len
      rw [len, Nat.add_sub_cancel' inWindow.le]
    refine ⟨[next', _], ?_, first carried fun none_ => ?_⟩
    · rw [cut]
      exact if_pos ends
    · have zero : BitVec.toNat _ = 0 := congrArg BitVec.toNat none_
      rw [len] at zero
      omega
  · exact ⟨_, rfl, first carries filled⟩

/-- What comes in front of a segment of the queue stays there. -/
theorem Queued.behind {prev : Option TcpSeg} {rest : List TcpSeg}
    (queued : Queued stream base high low (prev.toList ++ next :: rest)) :
    ∃ low', low ≤ low' ∧ Queued stream base high low' (next :: rest) ∧ (prev = none → low' = low) ∧
      ∀ queue, Queued stream base high low' queue →
        Queued stream base high low (prev.toList ++ queue) := by
  cases prev with
  | none => exact ⟨low, le_rfl, queued, fun _ => rfl, fun _ => id⟩
  | some before =>
      cases queued with
      | cons lower upper carries filled last queued =>
          refine ⟨_, lower.trans (Nat.le_add_right _ _), queued, by simp, fun queue queued' => ?_⟩
          exact .cons lower upper carries filled (fun finish => by cases last finish) queued'

theorem Queued.mem (queued : Queued stream base high low queue) (member : seg ∈ queue) :
    ∃ place, low ≤ place ∧ place ≤ high ∧ seg.Carries stream base place := by
  induction queued with
  | nil => cases member
  | cons lower upper carries _ _ _ ih =>
      rcases List.mem_cons.mp member with rfl | member
      · exact ⟨_, lower, upper, carries⟩
      · obtain ⟨place, lower', upper', carries'⟩ := ih member
        exact ⟨place, lower.trans ((Nat.le_add_right _ _).trans lower'), upper', carries'⟩

/-- No segment behind a place has its number. -/
theorem Queued.seqno_ne (queued : Queued stream base high low queue) (behind : place < low)
    (close : high < place + 2 ^ 20) (member : seg ∈ queue) : seg.seqno ≠ serial base place := by
  obtain ⟨place', lower, upper, carries⟩ := queued.mem member
  rw [carries.seqno, Ne, serial_inj ⟨by omega, by omega⟩]
  omega

/-- The loop puts a segment of the window into the queue. -/
theorem placeOoseq_spec {copies : Bool} {prev : Option TcpSeg}
    (rcvNxt : pcb.rcvNxt = serial base nxt) (reached : nxt ≤ place)
    (inWindow : place < nxt + pcb.rcvWnd.toNat) (carries : inseg.Carries stream base place)
    (filled : inseg.len = 0 → inseg.fin = true) (short : inseg.tcplen < 2 ^ 16)
    (agrees : pcb.EdgeAgrees inseg) (lower : prev = none → low ≤ place) (upper : place ≤ high)
    (reached' : nxt ≤ low) (close : high < nxt + 2 ^ 20)
    (queued : Queued stream base high low (prev.toList ++ queue)) :
    ∃ queue', pcb.placeOoseq inseg copies prev queue = some queue' ∧
      Queued stream base high low queue' := by
  induction queue generalizing prev low with
  | nil => exact ⟨_, rfl, by simpa using queued⟩
  | cons next rest ih =>
      obtain ⟨low', lower', front, same, rebuild⟩ := queued.behind
      have insert (behind : Queued stream base high place (next :: rest))
          (longest : ∀ next' ∈ next :: rest, next'.seqno = inseg.seqno → next'.len ≤ inseg.len) :=
        tcpOosInsertSegment_spec carries filled upper behind (by omega) longest
      cases front with
      | @cons _ place' _ _ first upper' carries' filled' last tail =>
      have near : Comparable 32 place place' := ⟨by omega, by omega⟩
      have some_ (open_ : ¬ next.fin = true) : next.len ≠ 0 := fun none_ => open_ (filled' none_)
      rw [TcpPcb.placeOoseq]
      split_ifs with equal longer before takes after keeps
      · -- The segment is longer than the one that has its number.
        rw [carries.seqno, carries'.seqno, serial_inj near] at equal
        subst equal
        obtain ⟨queue', put, queued'⟩ := insert (.cons le_rfl upper' carries' filled' last tail)
          fun next' member equal => by
            rcases List.mem_cons.mp member with rfl | member
            · exact BitVec.le_of_lt longer.1
            · have positive : 0 < next.len.toNat := by
                rw [Nat.pos_iff_ne_zero]
                refine fun zero => some_ (fun finish => ?_) (BitVec.eq_of_toNat_eq zero)
                rw [last finish] at member
                cases member
              exact absurd (equal.trans carries.seqno) (tail.seqno_ne (by omega) (by omega) member)
        exact ⟨_, Option.map_eq_some_iff.mpr ⟨_, put, rfl⟩, rebuild _ (queued'.lower first)⟩
      · exact ⟨_, rfl, queued⟩
      · have ahead (behind : place < place') := insert
          (.cons behind.le upper' carries' filled' last tail) fun next' member equal => by
            refine absurd (equal.trans carries.seqno) ?_
            exact Queued.seqno_ne (.cons le_rfl upper' carries' filled' last tail) behind
              (by omega) member
        cases prev with
        | none =>
            rw [TcpPcb.goesBefore, carries.seqno, carries'.seqno, seqLt_iff near] at before
            obtain ⟨queue', put, queued'⟩ := ahead before
            exact ⟨queue', put, queued'.lower (lower rfl)⟩
        | some prev =>
            cases queued with
            | @cons _ placeB _ _ lowerB upperB carriesB filledB lastB tailB =>
            have openB : prev.fin = false := by
              rw [← Bool.not_eq_true]
              exact fun finish => by cases lastB finish
            have someB : prev.len ≠ 0 := fun none_ => by simp [filledB none_] at openB
            obtain ⟨left, right⟩ := (Bool.and_eq_true _ _).mp before
            rw [carries.seqno, carriesB.seqno, seqGeq_succ_iff ⟨by omega, by omega⟩] at left
            rw [carries.seqno, carries'.seqno, seqLeq_pred_iff ⟨by omega, by omega⟩] at right
            obtain ⟨prev', cut, carriesB', openB', someB', room⟩ :=
              cutAt_spec carriesB openB someB left (by omega)
            rw [← carries.seqno] at cut
            obtain ⟨queue', put, queued'⟩ := ahead right
            refine ⟨prev' :: queue', ?_, ?_⟩
            · rw [TcpPcb.insertBetween, cut]
              exact Option.map_eq_some_iff.mpr ⟨_, put, rfl⟩
            · refine .cons lowerB upperB carriesB' (fun none_ => absurd none_ someB')
                (fun finish => ?_) (queued'.lower room)
              rw [openB'] at finish
              cases finish
      · exact ⟨_, rfl, queued⟩
      · exact ⟨_, rfl, queued⟩
      · -- The place is behind the last segment.
        obtain ⟨rfl, behind⟩ := after
        obtain ⟨open_, -⟩ := not_or.mp keeps
        rw [carries.seqno, carries'.seqno, seqGt_iff near] at behind
        obtain ⟨queue', append, queued'⟩ := appendOoseq_spec rcvNxt reached inWindow carries
          filled short agrees carries' (by simpa using open_) (some_ open_) behind (by omega) first
          upper
        exact ⟨_, Option.map_eq_some_iff.mpr ⟨_, append, rfl⟩, rebuild _ queued'⟩
      · have front' : some next = none → low' ≤ place := by simp
        obtain ⟨queue', found, queued'⟩ := ih front'
          (reached'.trans lower') (.cons first upper' carries' filled' last tail)
        exact ⟨_, Option.map_eq_some_iff.mpr ⟨_, found, rfl⟩, rebuild _ queued'⟩

end

end RtThread.Lwip
