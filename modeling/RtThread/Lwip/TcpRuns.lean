import RtThread.Lwip.TcpQueue

/-!
# What a TCP connection delivers

The bytes that a connection hands to its application are those of the stream that the peer sends,
from the first one on and in their order, however the network orders, repeats and cuts the segments.
-/

namespace RtThread.Lwip

open RtThread.Std

variable {stream : List (BitVec 8)} {base : BitVec 32} {place received high low start : Nat}
  {finished : Bool} {inseg cseg : TcpSeg} {queue : List TcpSeg} {pcb pcb' : TcpPcb}

/-! ## In sequence -/

/-- The bytes that wait for the application. -/
def dataBytes : Option PbufChain → List (BitVec 8)
  | none => []
  | some data => data.bytes

/-- What `pbuf_cat` needs of the data. -/
def DataSound (data : Option PbufChain) : Prop := ∀ chain ∈ data, chain.Sound ∧ chain ≠ []

theorem addData_spec {data data' : Option PbufChain} (sound : DataSound data)
    (carries : cseg.Carries stream base place) (added : addData data cseg.p = some data') :
    dataBytes data' = dataBytes data ++ cseg.p.bytes ∧ DataSound data' := by
  have totLen := carries.sound.totLen_toNat carries.short
  unfold addData at added
  split at added
  · cases data with
    | none =>
        obtain rfl := Option.some_inj.mp added
        exact ⟨rfl, fun chain same => by cases same; exact ⟨carries.sound, carries.chain⟩⟩
    | some chain =>
        obtain ⟨sound', some_⟩ := sound chain rfl
        obtain ⟨whole, cat, soundWhole, bytes⟩ := pbufCat_spec sound' carries.sound some_
        obtain ⟨joined, same, rfl⟩ := Option.map_eq_some_iff.mp added
        obtain rfl := Option.some_inj.mp (cat.symm.trans same)
        refine ⟨bytes, fun chain same => ?_⟩
        cases same
        refine ⟨soundWhole, ?_⟩
        rintro rfl
        have filled := congrArg List.length bytes
        rename_i positive
        rw [gt_iff_lt, BitVec.lt_def, totLen] at positive
        simp only [PbufChain.bytes_nil, List.length_nil, List.length_append] at filled
        simp only [BitVec.ofNat_eq_ofNat, BitVec.toNat_ofNat] at positive
        omega
  · rename_i none_
    obtain rfl := Option.some_inj.mp added
    rw [gt_iff_lt, BitVec.lt_def, totLen] at none_
    have empty : cseg.p.bytes = [] := by
      apply List.eq_nil_of_length_eq_zero
      simpa using none_
    exact ⟨by rw [empty, List.append_nil], sound⟩

/-- `tcp_update_rcv_ann_wnd` changes what is announced only. -/
theorem tcpUpdateRcvAnnWnd_kept {inflation : BitVec 32}
    (updated : pcb.tcpUpdateRcvAnnWnd = some (pcb', inflation)) :
    pcb'.rcvNxt = pcb.rcvNxt ∧ pcb'.ooseq = pcb.ooseq ∧ pcb'.refusedData = pcb.refusedData := by
  simp only [TcpPcb.tcpUpdateRcvAnnWnd] at updated
  split_ifs at updated <;>
    (obtain ⟨rfl, -⟩ := Prod.mk.inj (Option.some_inj.mp updated); exact ⟨rfl, rfl, rfl⟩)

theorem tcpRecved_kept {len : BitVec 16} (taken : pcb.tcpRecved len = some pcb') :
    pcb'.rcvNxt = pcb.rcvNxt ∧ pcb'.ooseq = pcb.ooseq ∧ pcb'.refusedData = pcb.refusedData := by
  rw [TcpPcb.tcpRecved] at taken
  split at taken
  · obtain ⟨⟨updated, inflation⟩, update, taken⟩ := Option.bind_eq_some_iff.mp taken
    obtain rfl := Option.some_inj.mp taken
    have kept := tcpUpdateRcvAnnWnd_kept update
    split
    · exact kept
    · exact kept
  · cases taken

theorem take_kept {seqno : BitVec 32} {count : Nat} (taken : pcb.take seqno count = some pcb') :
    pcb'.rcvNxt = seqno + BitVec.ofNat 32 count ∧ pcb'.ooseq = pcb.ooseq ∧
      pcb'.refusedData = pcb.refusedData := by
  rw [TcpPcb.take] at taken
  split at taken
  · obtain ⟨⟨updated, inflation⟩, update, rfl⟩ := Option.map_eq_some_iff.mp taken
    exact tcpUpdateRcvAnnWnd_kept update
  · cases taken

/-- The bytes of the stream from `start` to `received` have been gathered. -/
structure Gathered (stream : List (BitVec 8)) (base : BitVec 32) (start received : Nat)
    (finished : Bool) (state : Received) : Prop where
  rcvNxt : state.pcb.rcvNxt = serial base (received + finished.toNat)
  within : received ≤ stream.length
  ends : finished = true → received = stream.length
  started : start ≤ received
  data : dataBytes state.recvData = slice stream start (received - start)
  sound : DataSound state.recvData
  gotFin : state.gotFin = finished

/-- The connection has received the bytes of the stream in front of the place `received`. -/
structure Receives (stream : List (BitVec 8)) (base : BitVec 32) (received : Nat) (finished : Bool)
    (pcb : TcpPcb) : Prop where
  rcvNxt : pcb.rcvNxt = serial base (received + finished.toNat)
  within : received ≤ stream.length
  ends : finished = true → received = stream.length
  ooseq : Queued stream base (received + 2 ^ 16) (received + 1) pcb.ooseq

/-- A segment that is next is gathered. -/
theorem Gathered.next {state : Received} {data : Option PbufChain} {count : Nat}
    (tcpState : TcpState) (gathered : Gathered stream base start received false state)
    (carries : cseg.Carries stream base received) (length : count = cseg.tcplen)
    (taken : state.pcb.take cseg.seqno count = some pcb')
    (added : addData state.recvData cseg.p = some data) :
    Gathered stream base start (received + cseg.len.toNat) cseg.fin
      ⟨{ pcb' with state := tcpState }, data, state.gotFin || cseg.fin⟩ := by
  obtain ⟨rcvNxt, -, -⟩ := take_kept taken
  obtain ⟨bytes, sound⟩ := addData_spec gathered.sound carries added
  have started := gathered.started
  refine ⟨?_, carries.within, carries.fin, by omega, ?_, sound, ?_⟩
  · change pcb'.rcvNxt = _
    rw [rcvNxt, carries.seqno, length, carries.tcplen, Nat.add_assoc, serial_add]
    cases cseg.fin <;> rfl
  · change dataBytes data = _
    have split : received + cseg.len.toNat - start = received - start + cseg.len.toNat := by omega
    rw [bytes, gathered.data, carries.bytes, split, slice_add, Nat.add_sub_cancel' started]
  · change (state.gotFin || cseg.fin) = cseg.fin
    rw [gathered.gotFin, Bool.false_or]

/-- The segments of the queue that are in sequence are gathered, and the others stay. -/
theorem drain_spec {state state' : Received}
    (gathered : Gathered stream base start received finished state)
    (last : finished = true → queue = [])
    (queued : Queued stream base (received + 2 ^ 16) received queue)
    (drained : state.drain queue = some state') :
    ∃ received' finished', Gathered stream base start received' finished' state' ∧
      Receives stream base received' finished' state'.pcb ∧
      state'.pcb.refusedData = state.pcb.refusedData := by
  induction queue generalizing state received finished with
  | nil =>
      obtain rfl := Option.some_inj.mp drained
      exact ⟨received, finished, { gathered with },
        ⟨gathered.rcvNxt, gathered.within, gathered.ends, .nil⟩, rfl⟩
  | cons cseg rest ih =>
      obtain rfl : finished = false := by
        rw [← Bool.not_eq_true]
        exact fun finish => by cases last finish
      cases queued with
      | @cons _ place _ _ lower upper carries filled last' queued =>
      have near : Comparable 32 place received := ⟨by omega, by omega⟩
      have rcvNxt : state.pcb.rcvNxt = serial base received := gathered.rcvNxt
      rw [Received.drain] at drained
      split at drained
      · rename_i equal
        rw [carries.seqno, rcvNxt, serial_inj near] at equal
        subst equal
        obtain ⟨pcb, taken, rest'⟩ := Option.bind_eq_some_iff.mp drained
        obtain ⟨data, added, drained⟩ := Option.bind_eq_some_iff.mp rest'
        obtain ⟨received', finished', gathered', receives, refused⟩ :=
          ih (gathered.next _ carries rfl taken added) last' (queued.raise (by omega)) drained
        exact ⟨received', finished', gathered', receives, refused.trans (take_kept taken).2.2⟩
      · rename_i apart
        rw [carries.seqno, rcvNxt, serial_inj near] at apart
        obtain rfl := Option.some_inj.mp drained
        refine ⟨received, false, { gathered with }, ⟨gathered.rcvNxt, gathered.within,
          gathered.ends, ?_⟩, rfl⟩
        exact .cons (by omega) upper carries filled last' queued

/-- The segment ends where the window does, at the latest. -/
theorem fitWindow_spec {rcvNxt : BitVec 32} {rcvWnd : BitVec 16} {inseg' : TcpSeg}
    (carries : inseg.Carries stream base place) (filled : inseg.len = 0 → inseg.fin = true)
    (room : inseg.len.toNat + 1 < 2 ^ 16) (open_ : rcvWnd ≠ 0)
    (fits : inseg.fitWindow rcvNxt rcvWnd = some inseg') :
    inseg'.Carries stream base place ∧ (inseg'.len = 0 → inseg'.fin = true) ∧
      inseg'.len.toNat + 1 < 2 ^ 16 := by
  rw [TcpSeg.fitWindow] at fits
  split at fits
  · rename_i leaves
    rw [gt_iff_lt, BitVec.lt_def, TcpSeg.tcplen16, BitVec.toNat_ofNat, Nat.mod_eq_of_lt
      (carries.tcplen_short room), carries.tcplen] at leaves
    have less : rcvWnd ≤ inseg.len := by
      rw [BitVec.le_def]
      split at leaves <;> omega
    have unfinished : { inseg with fin := false }.Carries stream base place :=
      { carries with fin := fun finish => by cases finish }
    obtain ⟨p, cut, carried⟩ := unfinished.shorten rfl less
    obtain ⟨cropped, shorter, rest⟩ := Option.bind_eq_some_iff.mp fits
    obtain rfl := Option.some_inj.mp (cut.symm.trans shorter)
    split at rest
    · obtain rfl := Option.some_inj.mp rest
      rw [BitVec.le_def] at less
      exact ⟨carried, fun none_ => absurd none_ open_, by change rcvWnd.toNat + 1 < 2 ^ 16; omega⟩
    · cases rest
  · obtain rfl := Option.some_inj.mp fits
    exact ⟨carries, filled, room⟩

/-- The segments of the queue that end within the segment are dropped. -/
theorem cover_spec (carries : inseg.Carries stream base place) (open_ : inseg.fin = false)
    (front : place ≤ low) (queued : Queued stream base high low queue)
    (close : high < place + 2 ^ 20) :
    ∃ fin rest, inseg.cover queue = ({ inseg with fin }, rest) ∧
      { inseg with fin }.Carries stream base place ∧ (fin = true → rest = []) ∧
      Queued stream base high low rest := by
  have same : { inseg with fin := false } = inseg := by rw [← open_]
  induction queue generalizing low with
  | nil => exact ⟨false, [], by rw [same]; rfl, by rwa [same], by simp, .nil⟩
  | cons next rest ih =>
      cases queued with
      | @cons _ place' _ _ lower upper carries' filled last queued =>
      have short := next.len.isLt
      have short' := inseg.len.isLt
      have tcplen : inseg.tcplen = inseg.len.toNat := by simp [carries.tcplen, open_]
      rw [TcpSeg.cover]
      split
      · rename_i covered
        rw [carries.tcpEnd (by omega), carries'.dataEnd, seqGeq_iff ⟨by omega, by omega⟩, tcplen]
          at covered
        cases finish : next.fin with
        | false =>
            obtain ⟨fin, rest', found, carried, none_, queued'⟩ :=
              ih (front.trans (lower.trans (Nat.le_add_right _ _))) queued
            refine ⟨fin, rest', ?_, carried, none_, queued'.lower (by omega)⟩
            rw [Bool.false_and, open_, Bool.or_false, same, found]
        | true =>
            obtain rfl := last finish
            refine ⟨true, [], ?_, ?_, fun _ => rfl, .nil⟩
            · rw [carries.syn, open_]
              rfl
            · have carried := carries.finish carries' covered
              rwa [finish, Bool.or_true] at carried
      · refine ⟨false, next :: rest, by rw [same], by rwa [same], by simp, ?_⟩
        exact .cons lower upper carries' filled last queued

/-- The queue gives way to the segment that is in sequence. -/
theorem adjustOoseq_spec {inseg' : TcpSeg} {rest : List TcpSeg}
    (carries : inseg.Carries stream base place) (room : inseg.len.toNat + 1 < 2 ^ 16)
    (queued : Queued stream base high (place + 1) queue) (close : high < place + 2 ^ 16 + 2)
    (adjusted : inseg.adjustOoseq queue = some (inseg', rest)) :
    inseg'.Carries stream base place ∧ (inseg'.fin = true → rest = []) ∧
      inseg'.len.toNat + 1 < 2 ^ 16 ∧
      Queued stream base high (place + inseg'.len.toNat) rest := by
  rw [TcpSeg.adjustOoseq] at adjusted
  split at adjusted
  · obtain ⟨rfl, rfl⟩ := Prod.mk.inj (Option.some_inj.mp adjusted)
    exact ⟨carries, fun _ => rfl, room, .nil⟩
  · rename_i open_
    rw [Bool.not_eq_true] at open_
    obtain ⟨fin, rest', covers, carried, none_, queued'⟩ :=
      cover_spec carries open_ (Nat.le_add_right _ 1) queued (by omega)
    simp only [covers, Option.map_eq_some_iff, Prod.mk.injEq] at adjusted
    obtain ⟨inseg'', trimmed, rfl, rfl⟩ := adjusted
    cases queued' with
    | nil =>
        obtain rfl := Option.some_inj.mp trimmed
        exact ⟨carried, fun _ => rfl, room, .nil⟩
    | @cons _ place' next rest lower upper carries' filled' last queued' =>
        obtain rfl : fin = false := by
          rw [← Bool.not_eq_true]
          exact fun finish => by cases none_ finish
        have short := inseg.len.isLt
        have tcplen : TcpSeg.tcplen { inseg with fin := false } = inseg.len.toNat := by
          simp [carried.tcplen]
        have ends := carried.tcpEnd (by omega)
        rw [tcplen] at ends
        rw [TcpSeg.trimToQueue, ends, carries'.seqno] at trimmed
        split at trimmed
        · rename_i overlaps
          rw [seqGt_iff ⟨by omega, by omega⟩] at overlaps
          have len : ((serial base place' - inseg.seqno).setWidth 16).toNat = place' - place := by
            rw [carries.seqno, serial_sub_toNat (by omega) (by omega) (by decide)]
          have less : (serial base place' - inseg.seqno).setWidth 16 ≤ inseg.len := by
            rw [BitVec.le_def, len]
            omega
          obtain ⟨p, cut, carried'⟩ := carried.shorten rfl less
          obtain ⟨cropped, shorter, kept⟩ := Option.bind_eq_some_iff.mp trimmed
          obtain rfl := Option.some_inj.mp (cut.symm.trans shorter)
          split at kept
          · obtain rfl := Option.some_inj.mp kept
            refine ⟨carried', (fun finish => by cases finish), ?_, ?_⟩
            · change BitVec.toNat (BitVec.setWidth 16 (serial base place' - inseg.seqno)) + 1 < _
              rw [len]
              omega
            · change Queued stream base high
                (place + BitVec.toNat (BitVec.setWidth 16 (serial base place' - inseg.seqno))) _
              rw [len]
              exact .cons (by omega) upper carries' filled' last queued'
          · cases kept
        · rename_i apart
          rw [seqGt_iff ⟨by omega, by omega⟩] at apart
          obtain rfl := Option.some_inj.mp trimmed
          refine ⟨carried, (fun finish => by cases finish), room, ?_⟩
          exact .cons (Nat.not_lt.mp apart) upper carries' filled' last queued'

/-! ## Segments that begin earlier -/

/-- The loop hides the first bytes of a packet. -/
theorem hideFront_spec {newTotLen off : BitVec 16} {chain : PbufChain} (sound : chain.Sound)
    (some_ : chain ≠ []) (short : chain.bytes.length < 2 ^ 16)
    (below : off.toNat ≤ chain.bytes.length)
    (totLen : newTotLen = BitVec.ofNat 16 (chain.bytes.length - off.toNat)) :
    ∃ chain', hideFront newTotLen off chain = some chain' ∧ chain'.Sound ∧ chain' ≠ [] ∧
      chain'.bytes = chain.bytes.drop off.toNat := by
  induction chain generalizing off with
  | nil => exact absurd rfl some_
  | cons p rest ih =>
      have len := Pbuf.len_toNat short
      rw [hideFront]
      split
      · rename_i more
        rw [BitVec.lt_def, len] at more
        rw [PbufChain.bytes_cons, List.length_append] at short below totLen
        have left : (off - p.len).toNat = off.toNat - p.payload.length := by
          rw [BitVec.toNat_sub_of_le (by rw [BitVec.le_def]; omega), len]
        have filled : rest ≠ [] := by
          rintro rfl
          simp at below
          omega
        have same : p.payload.length + (PbufChain.bytes rest).length - off.toNat =
            (PbufChain.bytes rest).length - (off - p.len).toNat := by
          rw [left]
          omega
        have below' : (off - p.len).toNat ≤ (PbufChain.bytes rest).length := by omega
        obtain ⟨chain', hidden, sound', -, bytes⟩ :=
          ih sound.2 filled (by omega) below' (by rw [totLen, same])
        refine ⟨⟨[], newTotLen⟩ :: chain', by rw [hidden]; rfl, ⟨?_, sound'⟩, by simp, ?_⟩
        · rw [totLen, same, PbufChain.bytes_cons, List.nil_append, bytes, List.length_drop]
        · rw [PbufChain.bytes_cons, PbufChain.bytes_cons, List.nil_append, bytes, left,
            List.drop_append, List.drop_eq_nil_of_le more.le,
            List.nil_append]
      · rename_i few
        rw [BitVec.lt_def, len, Nat.not_lt] at few
        exact pbufHeaderHide_spec sound short few

/-- A segment that begins in front of what comes next is cut there. -/
theorem trimFront_spec {inseg' : TcpSeg} (carries : inseg.Carries stream base place)
    (room : inseg.len.toNat + 1 < 2 ^ 16) (begins : place < received)
    (ends : received < place + inseg.tcplen)
    (trimmed : inseg.trimFront (serial base received) = some inseg') :
    inseg'.Carries stream base received ∧ (inseg'.len = 0 → inseg'.fin = true) ∧
      inseg'.len.toNat + 1 < 2 ^ 16 := by
  rw [carries.tcplen] at ends
  have within : received - place ≤ inseg.len.toNat := by split at ends <;> omega
  set off16 := (serial base received - inseg.seqno).setWidth 16 with off16_eq
  have off : off16.toNat = received - place := by
    rw [off16_eq, carries.seqno, serial_sub_toNat begins.le (by omega) (by decide)]
  have left : (inseg.len - off16).toNat = inseg.len.toNat - (received - place) := by
    rw [BitVec.toNat_sub_of_le (by rw [BitVec.le_def, off]; exact within), off]
  rw [TcpSeg.trimFront] at trimmed
  split at trimmed
  · cases trimmed
  · rename_i p rest chain
    split at trimmed
    · cases trimmed
    · obtain ⟨q, hidden, rfl⟩ := Option.map_eq_some_iff.mp trimmed
      rw [← chain] at hidden
      have totLen : p.totLen - off16 =
          BitVec.ofNat 16 (inseg.p.bytes.length - off16.toNat) := by
        have first := carries.sound.totLen
        rw [chain] at first
        change p.totLen = _ at first
        rw [first, ← chain]
        apply BitVec.eq_of_toNat_eq
        rw [BitVec.toNat_sub_of_le, BitVec.toNat_ofNat, BitVec.toNat_ofNat,
          Nat.mod_eq_of_lt carries.short, Nat.mod_eq_of_lt]
        · have short := carries.short
          omega
        · rw [BitVec.le_def, BitVec.toNat_ofNat, Nat.mod_eq_of_lt carries.short, carries.len, off]
          exact within
      obtain ⟨q', hidden', sound, chain', bytes⟩ := hideFront_spec carries.sound carries.chain
        carries.short (by rw [carries.len, off]; exact within) totLen
      obtain rfl := Option.some_inj.mp (hidden'.symm.trans hidden)
      rw [off] at bytes
      have whole := carries.within
      refine ⟨⟨rfl, ?_, ?_, ?_, fun finish => ?_, carries.syn, sound, chain'⟩, fun none_ => ?_, ?_⟩
      · change q'.bytes.length = (inseg.len - off16).toNat
        rw [bytes, List.length_drop, carries.len, left]
      · change q'.bytes = slice stream received ((inseg.len - off16).toNat)
        rw [bytes, carries.bytes, drop_slice, left, Nat.add_sub_cancel' begins.le]
      · change received + (inseg.len - off16).toNat ≤ stream.length
        omega
      · change received + (inseg.len - off16).toNat = stream.length
        have whole := carries.fin finish
        omega
      · have zero : (inseg.len - off16).toNat = 0 := congrArg BitVec.toNat none_
        change inseg.fin = true
        rw [left] at zero
        by_contra open_
        rw [if_neg open_] at ends
        omega
      · change (inseg.len - off16).toNat + 1 < 2 ^ 16
        omega

/-! ## One segment -/

/-- What a segment leaves behind: more of the stream may have been gathered. -/
structure Advances (stream : List (BitVec 8)) (base : BitVec 32) (start : Nat) (finished : Bool)
    (refused : Option PbufChain) (state : Received) (received : Nat) (finished' : Bool) : Prop where
  receives : Receives stream base received finished' state.pcb
  started : start ≤ received
  data : dataBytes state.recvData = slice stream start (received - start)
  gotFin : state.gotFin = true → finished' = true
  stays : finished = true → finished' = true
  refused : state.pcb.refusedData = refused

/-- Only what is announced and acknowledged has changed. -/
theorem Receives.advances {refused : Option PbufChain}
    (receives : Receives stream base received finished pcb)
    (same : pcb.refusedData = refused) :
    Advances stream base received finished refused ⟨pcb, none, false⟩ received finished :=
  ⟨receives, le_rfl, by rw [Nat.sub_self, slice_zero]; rfl, nofun, id, same⟩

theorem receiveNext_spec {state : Received} (receives : Receives stream base received false pcb)
    (carries : inseg.Carries stream base received) (filled : inseg.len = 0 → inseg.fin = true)
    (room : inseg.len.toNat + 1 < 2 ^ 16) (open_ : pcb.rcvWnd ≠ 0)
    (taken : pcb.receiveNext inseg = some state) :
    ∃ received' finished',
      Advances stream base received false pcb.refusedData state received' finished' := by
  rw [TcpPcb.receiveNext] at taken
  obtain ⟨fitting, fits, taken⟩ := Option.bind_eq_some_iff.mp taken
  obtain ⟨⟨adjusted, rest⟩, adjusts, taken⟩ := Option.bind_eq_some_iff.mp taken
  obtain ⟨pcb', takes, taken⟩ := Option.bind_eq_some_iff.mp taken
  obtain ⟨data, added, taken⟩ := Option.bind_eq_some_iff.mp taken
  obtain ⟨drained, drains, taken⟩ := Option.bind_eq_some_iff.mp taken
  obtain rfl := Option.some_inj.mp taken
  obtain ⟨carries, filled, room⟩ := fitWindow_spec carries filled room open_ fits
  obtain ⟨carries, last, room, queued⟩ :=
    adjustOoseq_spec carries room receives.ooseq (by omega) adjusts
  have none_ : Gathered stream base received received false ⟨pcb, none, false⟩ :=
    ⟨receives.rcvNxt, receives.within, receives.ends, le_rfl, by rw [Nat.sub_self, slice_zero]; rfl,
      nofun, rfl⟩
  have length : adjusted.tcplen16.toNat = adjusted.tcplen :=
    Nat.mod_eq_of_lt (carries.tcplen_short room)
  have first := none_.next pcb'.state carries length takes added
  obtain ⟨received', finished', gathered, receives', refused⟩ :=
    drain_spec first last (queued.raise (by omega)) drains
  refine ⟨received', finished', ⟨?_, gathered.started, gathered.data, ?_, nofun, ?_⟩⟩
  · rw [TcpPcb.tcpAck]
    split
    · exact { receives' with }
    · exact { receives' with }
  · intro finish
    rw [← gathered.gotFin]
    exact finish
  · have kept := (take_kept takes).2.2
    rw [TcpPcb.tcpAck]
    split
    · exact refused.trans kept
    · exact refused.trans kept

/-- Whether or not the acknowledgement is sent, only what is announced has changed. -/
theorem tcpSendEmptyAck_eq (pcb : TcpPcb) (answers : TcpAnswers) :
    ∃ ackDelay ackNow rcvAnnRightEdge,
      pcb.tcpSendEmptyAck answers = { pcb with ackDelay, ackNow, rcvAnnRightEdge } := by
  rw [TcpPcb.tcpSendEmptyAck]
  split
  · exact ⟨_, _, _, rfl⟩
  · exact ⟨_, _, _, rfl⟩

theorem receiveLater_spec {answers : TcpAnswers} {state : Received}
    (receives : Receives stream base received false pcb)
    (carries : inseg.Carries stream base place) (filled : inseg.len = 0 → inseg.fin = true)
    (room : inseg.len.toNat + 1 < 2 ^ 16) (later : received < place)
    (inWindow : place < received + pcb.rcvWnd.toNat) (agrees : pcb.EdgeAgrees inseg)
    (taken : pcb.receiveLater inseg answers = some state) :
    Advances stream base received false pcb.refusedData state received false := by
  have wnd := pcb.rcvWnd.isLt
  obtain ⟨ackDelay, ackNow, edge, same⟩ := tcpSendEmptyAck_eq pcb answers
  have finish {queue : List TcpSeg}
      (queued : Queued stream base (received + 2 ^ 16) (received + 1) queue) :
      Advances stream base received false pcb.refusedData
        ⟨{ pcb with ackDelay, ackNow, rcvAnnRightEdge := edge, ooseq := queue }, none, false⟩
        received false :=
    Receives.advances ⟨receives.rcvNxt, receives.within, receives.ends, queued⟩ rfl
  rw [TcpPcb.receiveLater, same] at taken
  split at taken
  · obtain rfl := Option.some_inj.mp taken
    apply finish
    split
    · exact .single later (by omega) carries filled
    · exact .nil
  · have placed : ∃ queue, TcpPcb.placeOoseq { pcb with ackDelay, ackNow, rcvAnnRightEdge := edge }
        inseg answers.copies none pcb.ooseq = some queue ∧
        Queued stream base (received + 2 ^ 16) (received + 1) queue :=
      placeOoseq_spec receives.rcvNxt later.le inWindow carries filled (carries.tcplen_short room)
        agrees (fun _ => later) (by omega) (Nat.le_add_right _ 1) (by omega) receives.ooseq
    obtain ⟨queue', places, queued⟩ := placed
    obtain ⟨queue, queues, taken⟩ := Option.bind_eq_some_iff.mp taken
    obtain rfl := Option.some_inj.mp (places.symm.trans queues)
    obtain rfl := Option.some_inj.mp taken
    exact finish queued

/-- The place of a segment is not further from what comes next than the numbers can tell. -/
structure Recent (received place : Nat) : Prop where
  left : place < received + 2 ^ 30
  right : received < place + 2 ^ 30

theorem seqBetween_window (rcvNxt : pcb.rcvNxt = serial base received)
    (left : place < received + 2 ^ 30) (right : received ≤ place + 2 ^ 30) :
    seqBetween (serial base place) pcb.rcvNxt (pcb.rightEdge - 1) = true ↔
      received ≤ place ∧ place < received + pcb.rcvWnd.toNat := by
  have wnd := pcb.rcvWnd.isLt
  rw [seqBetween, Bool.and_eq_true, rightEdge_eq rcvNxt, rcvNxt, seqGeq_iff ⟨by omega, by omega⟩,
    seqLeq_pred_iff ⟨by omega, by omega⟩]

/-- A segment that nothing is to be cut off in front of. -/
theorem tcpReceive_place {answers : TcpAnswers} {state : Received}
    (receives : Receives stream base received finished pcb)
    (carries : inseg.Carries stream base place) (filled : inseg.len = 0 → inseg.fin = true)
    (room : inseg.len.toNat + 1 < 2 ^ 16) (recent : Recent received place)
    (agrees : pcb.rcvNxt ≠ inseg.seqno → pcb.EdgeAgrees inseg)
    (taken : (if seqBetween inseg.seqno pcb.rcvNxt (pcb.rightEdge - 1) then
        if pcb.rcvNxt = inseg.seqno then pcb.receiveNext inseg else pcb.receiveLater inseg answers
      else some ⟨pcb.tcpSendEmptyAck answers, none, false⟩) = some state) :
    ∃ received' finished',
      Advances stream base received finished pcb.refusedData state received' finished' := by
  have within := carries.within
  obtain ⟨left, right⟩ := recent
  have bound : finished.toNat ≤ 1 := Bool.toNat_le finished
  rw [carries.seqno] at taken
  split at taken
  · rename_i window
    rw [seqBetween_window receives.rcvNxt (by omega) (by omega)] at window
    obtain rfl : finished = false := by
      rw [← Bool.not_eq_true]
      intro finish
      have whole := receives.ends finish
      simp only [finish, Bool.toNat_true] at window
      omega
    simp only [Bool.toNat_false, Nat.add_zero] at window
    have next : pcb.rcvNxt = serial base received := receives.rcvNxt
    split at taken
    · rename_i same
      rw [next, serial_inj ⟨by omega, by omega⟩] at same
      subst same
      have open_ : pcb.rcvWnd ≠ 0 := by
        intro none_
        simp [none_] at window
      exact receiveNext_spec receives carries filled room open_ taken
    · rename_i apart
      have later : received ≠ place := by
        rintro rfl
        exact apart next
      rw [← carries.seqno] at apart
      exact ⟨_, _, receiveLater_spec receives carries filled room (by omega) window.2
        (agrees apart) taken⟩
  · obtain rfl := Option.some_inj.mp taken
    obtain ⟨ackDelay, ackNow, edge, same⟩ := tcpSendEmptyAck_eq pcb answers
    rw [same]
    exact ⟨_, _, Receives.advances { receives with } rfl⟩

/-- A segment keeps the connection in step with the stream. -/
theorem tcpReceive_spec {answers : TcpAnswers} {state : Received}
    (receives : Receives stream base received finished pcb)
    (carries : inseg.Carries stream base place) (room : inseg.len.toNat + 1 < 2 ^ 16)
    (recent : Recent received place) (agrees : pcb.EdgeAgrees inseg)
    (taken : pcb.tcpReceive inseg answers = some state) :
    ∃ received' finished',
      Advances stream base received finished pcb.refusedData state received' finished' := by
  have unchanged : ∃ received' finished', Advances stream base received finished pcb.refusedData
      ⟨pcb, none, false⟩ received' finished' := ⟨_, _, receives.advances rfl⟩
  have ackNow : Receives stream base received finished pcb.tcpAckNow := { receives with }
  have short := carries.tcplen_short room
  have wnd := pcb.rcvWnd.isLt
  have next := receives.rcvNxt
  obtain ⟨left, right⟩ := recent
  rw [TcpPcb.tcpReceive] at taken
  split at taken
  · obtain rfl := Option.some_inj.mp taken
    split
    · exact unchanged
    · exact ⟨_, _, ackNow.advances rfl⟩
  · rename_i some_
    have counts : 0 < inseg.tcplen := by
      rw [Nat.pos_iff_ne_zero]
      rintro zero
      exact some_ (by rw [TcpSeg.tcplen16, zero]; rfl)
    have filled : inseg.len = 0 → inseg.fin = true := by
      intro none_
      rw [carries.tcplen, none_] at counts
      by_contra open_
      simp [open_] at counts
    have overlap : seqBetween pcb.rcvNxt (inseg.seqno + 1) (inseg.tcpEnd - 1) = true ↔
        place < received + finished.toNat ∧ received + finished.toNat < place + inseg.tcplen := by
      have bound : finished.toNat ≤ 1 := Bool.toNat_le finished
      rw [seqBetween, Bool.and_eq_true, next, carries.seqno, carries.tcpEnd short,
        seqGeq_succ_iff ⟨by omega, by omega⟩, seqLeq_pred_iff ⟨by omega, by omega⟩]
    split at taken
    · rename_i overlaps
      rw [overlap] at overlaps
      obtain rfl : finished = false := by
        rw [← Bool.not_eq_true]
        intro finish
        have whole := receives.ends finish
        have last := carries.tcplen_within.1
        simp only [finish, Bool.toNat_true] at overlaps
        omega
      simp only [Bool.toNat_false, Nat.add_zero] at overlaps next
      rw [next] at taken
      obtain ⟨⟨pcb', inseg'⟩, cut, taken⟩ := Option.bind_eq_some_iff.mp taken
      obtain ⟨inseg'', trimmed, same⟩ := Option.map_eq_some_iff.mp cut
      obtain ⟨rfl, rfl⟩ := Prod.mk.inj same
      obtain ⟨carries', filled', room'⟩ :=
        trimFront_spec carries room overlaps.1 overlaps.2 trimmed
      exact tcpReceive_place receives carries' filled' room' ⟨by omega, by omega⟩
        (fun apart => absurd (next.trans carries'.seqno.symm) apart) taken
    · by_cases early : seqLt inseg.seqno pcb.rcvNxt = true
      · rw [if_pos early] at taken
        have placed : ∃ received' finished', Advances stream base received finished
            pcb.tcpAckNow.refusedData state received' finished' :=
          tcpReceive_place ackNow carries filled room ⟨left, right⟩ (fun _ => agrees) taken
        exact placed
      · rw [if_neg early] at taken
        exact tcpReceive_place receives carries filled room ⟨left, right⟩ (fun _ => agrees) taken

/-- A segment of an open connection. -/
theorem tcpProcess_spec {answers : TcpAnswers} {state : Received}
    (receives : Receives stream base received finished pcb)
    (part : inseg.syn = true ∨ ∃ place, inseg.Carries stream base place ∧
      inseg.len.toNat + 1 < 2 ^ 16 ∧ Recent received place ∧ pcb.EdgeAgrees inseg)
    (processed : pcb.tcpProcess inseg answers = some state) :
    ∃ received' finished',
      Advances stream base received finished pcb.refusedData state received' finished' := by
  rw [TcpPcb.tcpProcess] at processed
  split at processed
  · obtain rfl := Option.some_inj.mp processed
    have ackNow : Receives stream base received finished pcb.tcpAckNow := { receives with }
    exact ⟨_, _, ackNow.advances rfl⟩
  · rename_i data
    obtain ⟨place, carries, room, recent, agrees⟩ := part.resolve_left data
    obtain ⟨state, taken, processed⟩ := Option.bind_eq_some_iff.mp processed
    obtain rfl := Option.some_inj.mp processed
    obtain ⟨received', finished', advances⟩ :=
      tcpReceive_spec receives carries room recent agrees taken
    refine ⟨received', finished', ?_⟩
    split
    · exact { advances with receives := { advances.receives with } }
    · exact advances

/-! ## Runs -/

namespace TcpSystem

variable {system system' : TcpSystem}

/-- What has been received in order, whether or not the application has taken it. -/
def inHand (system : TcpSystem) : List (BitVec 8) :=
  system.taken ++ dataBytes system.pcb.refusedData

/-- The segments that arrive are parts of the stream, in any order, any number of times and in any
pieces, and none is older or newer than the numbers can tell. -/
def Admits (stream : List (BitVec 8)) (base : BitVec 32) (system : TcpSystem) : TcpAction → Prop
  | .input inseg _ =>
      inseg.syn = true ∨
        ∃ place, inseg.Carries stream base place ∧ inseg.len.toNat + 1 < 2 ^ 16 ∧
          Recent system.inHand.length place ∧ system.pcb.EdgeAgrees inseg
  | _ => True

/-- What the application and the peer may rely on. -/
structure Delivers (stream : List (BitVec 8)) (base : BitVec 32) (system : TcpSystem) : Prop where
  inOrder : system.inHand <+: stream
  /-- What is acknowledged is in hand. -/
  acknowledges : system.pcb.rcvNxt = serial base system.inHand.length ∨
    system.pcb.rcvNxt = serial base (stream.length + 1) ∧ system.inHand = stream
  closes : system.closed = true → system.inHand = stream

/-- The connection is in step with the stream. -/
structure Follows (stream : List (BitVec 8)) (base : BitVec 32) (received : Nat) (finished : Bool)
    (system : TcpSystem) : Prop where
  receives : Receives stream base received finished system.pcb
  inHand : system.inHand = stream.take received
  closed : system.closed = true → finished = true

/-- The connection is in step with the stream, wherever it is. -/
def InStep (stream : List (BitVec 8)) (base : BitVec 32) (system : TcpSystem) : Prop :=
  ∃ received finished, system.Follows stream base received finished

theorem Follows.length (follows : system.Follows stream base received finished) :
    system.inHand.length = received := by
  rw [follows.inHand, List.length_take, Nat.min_eq_left follows.receives.within]

theorem Follows.delivers (follows : system.Follows stream base received finished) :
    system.Delivers stream base := by
  have whole (finish : finished = true) : system.inHand = stream := by
    rw [follows.inHand, follows.receives.ends finish, List.take_length]
  refine ⟨by rw [follows.inHand]; exact List.take_prefix _ _, ?_, fun closed => whole
    (follows.closed closed)⟩
  rw [follows.length]
  cases finish : finished with
  | false => exact .inl (by simpa [finish] using follows.receives.rcvNxt)
  | true =>
      have ends := follows.receives.ends finish
      exact .inr ⟨by simpa [finish, ends] using follows.receives.rcvNxt, whole finish⟩

theorem offerRefused_eq (pcb : TcpPcb) (takes : Bool) :
    ∃ refusedData, (pcb.offerRefused takes).1 = { pcb with refusedData } := by
  rw [TcpPcb.offerRefused]
  split
  · split
    · exact ⟨_, rfl⟩
    · exact ⟨_, rfl⟩
  · exact ⟨_, rfl⟩

theorem tcpFasttmr_eq (pcb : TcpPcb) (takes : Bool) :
    ∃ ackDelay ackNow, (pcb.tcpFasttmr takes).1 =
      { (pcb.offerRefused takes).1 with ackDelay, ackNow } := by
  change ∃ ackDelay ackNow, (if (pcb.offerRefused takes).1.ackDelay then
    { (pcb.offerRefused takes).1 with ackDelay := false, ackNow := false }
    else (pcb.offerRefused takes).1) = _
  split
  · exact ⟨_, _, rfl⟩
  · exact ⟨_, _, rfl⟩

theorem foldl_tell_with {events : List TcpEvent} :
    { events.foldl tell system with pcb } = events.foldl tell { system with pcb } := by
  induction events generalizing system with
  | nil => rfl
  | cons event rest ih =>
      rw [List.foldl_cons, List.foldl_cons, ih]
      cases event with
      | recv data => rfl
      | closed => rfl

theorem after_pcb {events : List TcpEvent} : (system.after pcb events).1.pcb = pcb := by
  rw [after, ← foldl_tell_with]

theorem after_append (pcb' : TcpPcb) {events events' : List TcpEvent} :
    ((system.after pcb' events).1.after pcb events').1 =
      (system.after pcb (events ++ events')).1 := by
  change List.foldl tell { events.foldl tell { system with pcb := pcb' } with pcb } events' = _
  rw [foldl_tell_with, after, List.foldl_append]

/-- The connection announces something else. -/
theorem Follows.keeps (follows : system.Follows stream base received finished)
    (rcvNxt : pcb.rcvNxt = system.pcb.rcvNxt) (ooseq : pcb.ooseq = system.pcb.ooseq)
    (refused : pcb.refusedData = system.pcb.refusedData) :
    ((system.after pcb []).1).Follows stream base received finished := by
  obtain ⟨receives, inHand, closed⟩ := follows
  refine ⟨⟨rcvNxt.trans receives.rcvNxt, receives.within, receives.ends, ?_⟩, ?_, closed⟩
  · change Queued stream base _ _ pcb.ooseq
    rw [ooseq]
    exact receives.ooseq
  · change system.taken ++ dataBytes pcb.refusedData = _
    rw [refused]
    exact inHand

/-- What is dropped has not been acknowledged. -/
theorem Follows.dropOoseq (follows : system.Follows stream base received finished) :
    ((system.after system.pcb.dropOoseq []).1).Follows stream base received finished :=
  ⟨{ follows.receives with ooseq := .nil }, follows.inHand, follows.closed⟩

/-- Data that was refused before is in hand already. -/
theorem Follows.offered (takes : Bool) (follows : system.Follows stream base received finished) :
    ((system.after (system.pcb.offerRefused takes).1 (system.pcb.offerRefused takes).2).1).Follows
      stream base received finished := by
  obtain ⟨receives, inHand, closed⟩ := follows
  rw [TcpPcb.offerRefused]
  split
  · rename_i data refused
    split
    · refine ⟨{ receives with }, ?_, closed⟩
      rw [TcpSystem.inHand, refused] at inHand
      simpa [TcpSystem.inHand, TcpSystem.after, TcpSystem.tell, dataBytes] using inHand
    · exact ⟨receives, inHand, closed⟩
  · exact ⟨receives, inHand, closed⟩

/-- New data goes behind what is in hand. -/
theorem Follows.delivered {state : Received} {answers : TcpAnswers} {pcb : TcpPcb}
    {events : List TcpEvent} {received' : Nat} {finished' : Bool}
    (follows : system.Follows stream base received finished)
    (advances : Advances stream base received finished system.pcb.refusedData state received'
      finished')
    (delivered : TcpPcb.deliver state answers = some (pcb, events)) :
    ((system.after pcb events).1).Follows stream base received' finished' := by
  have taken : system.inHand ++ dataBytes state.recvData = stream.take received' := by
    rw [follows.inHand, advances.data, take_append_slice, Nat.add_sub_cancel' advances.started]
  have stays (closed : system.closed = true) := advances.stays (follows.closed closed)
  have receives := advances.receives
  have refused := advances.refused
  rw [TcpSystem.inHand, ← refused] at taken
  have finish (closed : system.closed = true ∨ state.gotFin = true) : finished' = true :=
    closed.elim stays advances.gotFin
  simp only [TcpPcb.deliver] at delivered
  split at delivered
  · rename_i none_
    rw [none_, dataBytes, List.append_nil] at taken
    split at delivered
    · rename_i got
      obtain ⟨rfl, rfl⟩ := Prod.mk.inj (Option.some_inj.mp delivered)
      exact ⟨{ receives with }, taken, fun _ => finish (.inr got)⟩
    · obtain ⟨rfl, rfl⟩ := Prod.mk.inj (Option.some_inj.mp delivered)
      exact ⟨receives, taken, fun closed => finish (.inl closed)⟩
  · rename_i data some_
    split at delivered
    · cases delivered
    · rename_i accepted
      rw [not_not] at accepted
      rw [some_, accepted, dataBytes, dataBytes, List.append_nil] at taken
      by_cases got : state.gotFin = true
      · simp only [got, if_true, Prod.map_apply, id_eq] at delivered
        split at delivered
        · obtain ⟨rfl, rfl⟩ := Prod.mk.inj (Option.some_inj.mp delivered)
          refine ⟨{ receives with }, ?_, fun _ => finish (.inr got)⟩
          simpa [TcpSystem.inHand, TcpSystem.after, TcpSystem.tell, accepted, dataBytes] using taken
        · obtain ⟨rfl, rfl⟩ := Prod.mk.inj (Option.some_inj.mp delivered)
          exact ⟨{ receives with }, taken, fun _ => finish (.inr got)⟩
      · simp only [got] at delivered
        split at delivered
        · obtain ⟨rfl, rfl⟩ := Prod.mk.inj (Option.some_inj.mp delivered)
          refine ⟨receives, ?_, fun closed => finish (.inl closed)⟩
          simpa [TcpSystem.inHand, TcpSystem.after, TcpSystem.tell, accepted, dataBytes] using taken
        · obtain ⟨rfl, rfl⟩ := Prod.mk.inj (Option.some_inj.mp delivered)
          exact ⟨{ receives with }, taken, fun closed => finish (.inl closed)⟩

/-- A segment from the network keeps the connection in step. -/
theorem Follows.input {answers : TcpAnswers} {events : List TcpEvent}
    (follows : system.Follows stream base received finished)
    (admitted : system.Admits stream base (.input inseg answers))
    (taken : system.pcb.tcpInput inseg answers = some (pcb, events)) :
    ∃ received' finished', received ≤ received' ∧ (finished = true → finished' = true) ∧
      ((system.after pcb events).1).Follows stream base received' finished' := by
  have offered := follows.offered answers.takesRefused
  obtain ⟨refusedData, same⟩ := offerRefused_eq system.pcb answers.takesRefused
  simp only [TcpPcb.tcpInput] at taken
  split at taken
  · obtain ⟨rfl, rfl⟩ := Prod.mk.inj (Option.some_inj.mp taken)
    exact ⟨received, finished, le_rfl, id, offered⟩
  · obtain ⟨state, processed, taken⟩ := Option.bind_eq_some_iff.mp taken
    obtain ⟨⟨pcb', second⟩, delivered, taken⟩ := Option.bind_eq_some_iff.mp taken
    obtain ⟨rfl, rfl⟩ := Prod.mk.inj (Option.some_inj.mp taken)
    have receives := offered.receives
    rw [after_pcb] at receives
    obtain ⟨received', finished', advances⟩ := tcpProcess_spec receives (by
      refine admitted.imp_right fun ⟨place, carries, room, recent, agrees⟩ => ?_
      rw [follows.length] at recent
      rw [same]
      exact ⟨place, carries, room, recent, agrees⟩) processed
    rw [← after_append (system.pcb.offerRefused answers.takesRefused).1]
    exact ⟨received', finished', advances.started, advances.stays,
      offered.delivered (by rwa [after_pcb]) delivered⟩

/-- Every step keeps the connection in step with the stream. -/
theorem Follows.step {action : TcpAction} {events : List TcpEvent}
    (follows : system.Follows stream base received finished)
    (admitted : system.Admits stream base action)
    (transition : tcpMachine.step system action = some (system', events)) :
    ∃ received' finished', received ≤ received' ∧ (finished = true → finished' = true) ∧
      system'.Follows stream base received' finished' := by
  cases action with
  | input inseg answers =>
      obtain ⟨⟨pcb, told⟩, taken, same⟩ := Option.map_eq_some_iff.mp transition
      obtain ⟨rfl, -⟩ := Prod.mk.inj same
      exact follows.input admitted taken
  | recved len =>
      obtain ⟨pcb, taken, same⟩ := Option.map_eq_some_iff.mp transition
      obtain ⟨rfl, -⟩ := Prod.mk.inj same
      obtain ⟨rcvNxt, ooseq, refused⟩ := tcpRecved_kept taken
      exact ⟨received, finished, le_rfl, id, follows.keeps rcvNxt ooseq refused⟩
  | fasttmr takes =>
      have next : (system.after (system.pcb.tcpFasttmr takes).1
          (system.pcb.tcpFasttmr takes).2).1 = system' :=
        congrArg Prod.fst (Option.some_inj.mp transition)
      have offered := follows.offered takes
      have same : (system.pcb.tcpFasttmr takes).2 =
          (system.pcb.offerRefused takes).2 ++ [] := (List.append_nil _).symm
      rw [← next, same, ← after_append (system.pcb.offerRefused takes).1]
      obtain ⟨ackDelay, ackNow, flags⟩ := tcpFasttmr_eq system.pcb takes
      rw [flags]
      exact ⟨received, finished, le_rfl, id,
        offered.keeps (by rw [after_pcb]) (by rw [after_pcb]) (by rw [after_pcb])⟩
  | dropOoseq =>
      obtain ⟨rfl, -⟩ := Prod.mk.inj (Option.some_inj.mp transition)
      exact ⟨received, finished, le_rfl, id, follows.dropOoseq⟩
  | sent =>
      obtain ⟨rfl, -⟩ := Prod.mk.inj (Option.some_inj.mp transition)
      exact ⟨received, finished, le_rfl, id, follows.keeps rfl rfl rfl⟩

end TcpSystem

/-- A connection that nothing has been received on. -/
structure TcpPcb.Opens (base : BitVec 32) (pcb : TcpPcb) : Prop where
  rcvNxt : pcb.rcvNxt = base
  ooseq : pcb.ooseq = []
  refusedData : pcb.refusedData = none

theorem TcpPcb.Opens.follows (opens : pcb.Opens base) :
    TcpSystem.Follows stream base 0 false ⟨pcb, [], false⟩ := by
  refine ⟨⟨opens.rcvNxt.trans (serial_zero base).symm, Nat.zero_le _, nofun, ?_⟩, ?_, nofun⟩
  · change Queued stream base _ _ pcb.ooseq
    rw [opens.ooseq]
    exact .nil
  · change dataBytes pcb.refusedData = []
    rw [opens.refusedData]
    rfl

/-- In every run the application is handed the bytes of the stream in their order, each once, and
nothing is acknowledged before it is in hand. -/
theorem tcp_delivers_stream {actions : List TcpAction} {events : List TcpEvent}
    {system : TcpSystem} (opens : pcb.Opens base)
    (run : tcpMachine.Run (TcpSystem.Admits stream base) ⟨pcb, [], false⟩ actions events system) :
    system.Delivers stream base := by
  have inStep : system.InStep stream base :=
    run.invariant ⟨0, false, opens.follows⟩ fun _ _ _ _ ⟨_, _, follows⟩ admitted transition => by
      obtain ⟨received', finished', -, -, follows'⟩ := follows.step admitted transition
      exact ⟨received', finished', follows'⟩
  obtain ⟨received, finished, follows⟩ := inStep
  exact follows.delivers

/-! The numbers wrap around while the last two bytes overtake the others. -/

def wrappingPcb : TcpPcb where
  state := .established
  rcvNxt := 0xfffffffe
  rcvWnd := 2048
  rcvAnnWnd := 2048
  rcvAnnRightEdge := 0x7fe
  mss := 1460
  ackDelay := false
  ackNow := false
  ooseq := []
  refusedData := none

def overtakingTail : TcpSeg := ⟨1, 2, false, true, [⟨[4, 5], 2⟩]⟩

def overlappingHead : TcpSeg := ⟨0xfffffffe, 4, false, false, [⟨[1], 4⟩, ⟨[2, 3, 4], 3⟩]⟩

def eager : TcpAnswers := ⟨true, true, true, true⟩

def overtakenPcb : TcpPcb := { wrappingPcb with ooseq := [overtakingTail] }

theorem tcp_delivers_overtaken :
    ∃ system events, tcpMachine.Run (TcpSystem.Admits [1, 2, 3, 4, 5] 0xfffffffe)
      ⟨wrappingPcb, [], false⟩ [.input overtakingTail eager, .input overlappingHead eager] events
      system ∧ events = [.recv [1, 2, 3, 4, 5], .closed] ∧
      TcpSystem.Delivers [1, 2, 3, 4, 5] 0xfffffffe system := by
  have first : tcpMachine.step ⟨wrappingPcb, [], false⟩ (.input overtakingTail eager) =
      some (⟨overtakenPcb, [], false⟩, []) := by decide
  obtain ⟨system, second⟩ : ∃ system,
      tcpMachine.step ⟨overtakenPcb, [], false⟩ (.input overlappingHead eager) =
        some (system, [.recv [1, 2, 3, 4, 5], .closed]) := ⟨_, rfl⟩
  have tail : overtakingTail.Carries [1, 2, 3, 4, 5] 0xfffffffe 3 :=
    ⟨rfl, rfl, rfl, by decide, fun _ => rfl, rfl, ⟨rfl, trivial⟩, nofun⟩
  have head : overlappingHead.Carries [1, 2, 3, 4, 5] 0xfffffffe 0 :=
    ⟨rfl, rfl, rfl, by decide, nofun, rfl, ⟨rfl, rfl, trivial⟩, nofun⟩
  have late : TcpSystem.Admits [1, 2, 3, 4, 5] 0xfffffffe ⟨wrappingPcb, [], false⟩
      (.input overtakingTail eager) :=
    .inr ⟨3, tail, by decide, ⟨by decide, by decide⟩, by decide⟩
  have overlapping : TcpSystem.Admits [1, 2, 3, 4, 5] 0xfffffffe ⟨overtakenPcb, [], false⟩
      (.input overlappingHead eager) :=
    .inr ⟨0, head, by decide, ⟨by decide, by decide⟩, by decide⟩
  have run := (Machine.Run.nil.snoc late first).snoc overlapping second
  exact ⟨system, _, run, rfl, tcp_delivers_stream ⟨rfl, rfl, rfl⟩ run⟩

end RtThread.Lwip
