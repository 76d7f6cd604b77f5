import RtThread.Lwip.TcpAcks

/-!
# What the application writes

`tcp_write` puts its bytes behind those that have been written before, in whichever of its phases it
does so, or leaves everything as it is.
-/

namespace RtThread.Lwip

open RtThread.Std

variable {stream arg : List (BitVec 8)} {base : BitVec 32} {acked next total : Nat} {opened : Bool}
  {held waiting : List (Portion TcpSeg)} {pcb pcb' : TcpSendPcb} {p : Portion TcpSeg}
  {flags : WriteFlags}

/-- The bytes are those of the stream from a place on. -/
structure Continues (stream : List (BitVec 8)) (place : Nat) (arg : List (BitVec 8)) : Prop where
  bytes : arg = slice stream place arg.length
  within : place + arg.length ≤ stream.length

namespace Continues

variable {place : Nat}

theorem take (continues : Continues stream place arg) (count : Nat) (few : count ≤ arg.length) :
    arg.take count = slice stream place count := by
  rw [continues.bytes, take_slice few]

theorem drop (continues : Continues stream place arg) (count : Nat) (few : count ≤ arg.length) :
    Continues stream (place + count) (arg.drop count) := by
  have within := continues.within
  refine ⟨?_, ?_⟩
  · rw [List.length_drop]
    conv_lhs => rw [continues.bytes, drop_slice]
  · rw [List.length_drop]
    omega

/-- The bytes are cut in two. -/
theorem cut (continues : Continues stream place arg) (count : Nat) :
    Continues stream place (arg.take count) ∧
      Continues stream (place + (arg.take count).length) (arg.drop count) := by
  have few : min count arg.length ≤ arg.length := Nat.min_le_right _ _
  have within := continues.within
  rw [List.take_eq_take_min, List.drop_eq_drop_min, List.length_take_of_le few]
  refine ⟨⟨?_, ?_⟩, continues.drop _ few⟩
  · rw [List.length_take_of_le few]
    exact continues.take _ few
  · rw [List.length_take_of_le few]
    omega

end Continues

/-! ## New segments -/

/-- What is allocated beyond the data still fits into the segment. -/
theorem tcpPbufPrealloc_spec (pcb : TcpSendPcb) (length maxLength : BitVec 16)
    (more firstSeg : Bool) (fits : length ≤ maxLength) :
    (pcb.tcpPbufPrealloc length maxLength more firstSeg).toNat + length.toNat ≤
      maxLength.toNat := by
  rw [BitVec.le_def] at fits
  have bound := maxLength.isLt
  rw [TcpSendPcb.tcpPbufPrealloc]
  split
  · have mss : tcpMss = 1460 := rfl
    have least : length.toNat ≤ min maxLength.toNat ((length.toNat + tcpMss + 3) / 4 * 4) := by
      omega
    have alloc : (BitVec.ofNat 16 (min maxLength.toNat
        ((length.toNat + tcpMss + 3) / 4 * 4))).toNat =
          min maxLength.toNat ((length.toNat + tcpMss + 3) / 4 * 4) := by
      rw [BitVec.toNat_ofNat, Nat.mod_eq_of_lt (by omega)]
    dsimp only
    rw [BitVec.toNat_sub_of_le (by rw [BitVec.le_def, alloc]; exact least), alloc]
    omega
  · simpa using fits

/-- A segment of new data. -/
theorem newSegment_carries (base : BitVec 32) {place : Nat} {data : List (BitVec 8)} {chain : PbufChain}
    (bytes : chain.bytes = data) (sound : chain.Sound) (some_ : chain ≠ [])
    (continues : Continues stream place data) (short : data.length < 2 ^ 16) :
    (⟨serial base place, PbufChain.totLen chain, false, false, chain⟩ : TcpSeg).Carries stream base
      place := by
  have length : (PbufChain.totLen chain).toNat = data.length := by
    rw [sound.totLen_toNat (by rw [bytes]; exact short), bytes]
  refine ⟨rfl, ?_, ?_, ?_, nofun, rfl, sound, some_⟩
  · change chain.bytes.length = (PbufChain.totLen chain).toNat
    rw [length, bytes]
  · change chain.bytes = slice stream place (PbufChain.totLen chain).toNat
    rw [length, bytes]
    exact continues.bytes
  · change place + (PbufChain.totLen chain).toNat ≤ stream.length
    rw [length]
    exact continues.within

/-- The new segments are pieces of the stream beside each other. -/
structure Segments (stream : List (BitVec 8)) (base : BitVec 32) (mss : BitVec 16) (place : Nat)
    (stop : Nat) (before oversize : BitVec 16) (pieces : List (Portion TcpSeg))
    (queuelen oversize' : BitVec 16) : Prop where
  outgoing : ∀ p ∈ pieces, Outgoing stream base mss p
  consecutive : Portion.Consecutive place pieces stop
  count : queuelen.toNat = before.toNat + clens (pieces.map Portion.value)
  few : queuelen ≤ tcpSndQueuelen
  same : pieces = [] → oversize' = oversize
  room : oversize' ≠ 0 → ∀ p ∈ pieces.getLast?,
    oversize'.toNat + p.value.len.toNat ≤ mss.toNat

theorem writeSegments_spec (flags : WriteFlags) (room : Nat) (firstSeg : Bool) {place : Nat}
    {queuelen : BitVec 16} (oversize : BitVec 16) (mss : 0 < pcb.mss.toNat) (mssMost : pcb.mss.toNat ≤ tcpMss)
    (continues : Continues stream place arg) (few : queuelen ≤ tcpSndQueuelen)
    (unused : flags.copy = true ∨ oversize = 0 ∨ arg = []) :
    pcb.writeSegments flags room firstSeg (serial base place) queuelen oversize arg =
        .error .mem ∨
      ∃ pieces queuelen' oversize', pcb.writeSegments flags room firstSeg (serial base place)
          queuelen oversize arg = .ok (pieces.map Portion.value, queuelen', oversize') ∧
        Segments stream base pcb.mss place (place + arg.length) queuelen oversize pieces queuelen'
          oversize' := by
  induction room generalizing firstSeg place queuelen oversize arg with
  | zero =>
      cases arg with
      | nil =>
          refine .inr ⟨[], queuelen, oversize, rfl, by simp, ?_, by simp, few, fun _ => rfl, by simp⟩
          exact rfl
      | cons byte rest => exact .inl rfl
  | succ room ih =>
      cases arg with
      | nil =>
          refine .inr ⟨[], queuelen, oversize, rfl, by simp, ?_, by simp, few, fun _ => rfl, by simp⟩
          exact rfl
      | cons byte rest =>
          rw [TcpSendPcb.writeSegments]
          obtain ⟨whole, shape⟩ : ∃ whole, byte :: rest = whole := ⟨_, rfl⟩
          have some_ : 0 < whole.length := by simp [← shape]
          rw [shape] at continues unused ⊢
          have length : (whole.take pcb.mss.toNat).length = min pcb.mss.toNat whole.length :=
            List.length_take
          obtain ⟨data, taken⟩ : ∃ data, whole.take pcb.mss.toNat = data := ⟨_, rfl⟩
          obtain ⟨left, dropped⟩ : ∃ left, whole.drop pcb.mss.toNat = left := ⟨_, rfl⟩
          have most : tcpMss = 1460 := rfl
          have limit : tcpSndQueuelen.toNat = 5 := rfl
          obtain ⟨part, rest'⟩ := continues.cut pcb.mss.toNat
          have total : data.length + left.length = whole.length := by
            rw [← taken, ← dropped, ← List.length_append, List.take_append_drop]
          rw [taken] at length part rest'
          rw [dropped] at rest'
          have seglen : (BitVec.ofNat 16 data.length).toNat = data.length := by
            rw [BitVec.toNat_ofNat, Nat.mod_eq_of_lt (by omega)]
          obtain ⟨chain, built, bytes, sound, filled, short, totLen⟩ : ∃ chain : PbufChain,
              (if flags.copy = true then [⟨data, BitVec.ofNat 16 data.length⟩]
                else [⟨[], BitVec.ofNat 16 data.length⟩, ⟨data, BitVec.ofNat 16 data.length⟩]) =
                  chain ∧ chain.bytes = data ∧ chain.Sound ∧ chain ≠ [] ∧ chain.length ≤ 2 ∧
                    chain.totLen = BitVec.ofNat 16 data.length := by
            refine ⟨_, rfl, ?_⟩
            split
            · exact ⟨by simp, ⟨by simp, trivial⟩, by simp, by simp, rfl⟩
            · exact ⟨by simp, ⟨by simp, by simp, trivial⟩, by simp, by simp, rfl⟩
          have clen : ((pbufClen chain).setWidth 16).toNat = chain.length := by
            rw [pbufClen, BitVec.toNat_setWidth, BitVec.toNat_ofNat]
            omega
          have carries := newSegment_carries base bytes sound filled part (by omega)
          have number : serial base place + (BitVec.ofNat 16 data.length).setWidth 32 =
              serial base (place + data.length) := by
            rw [serial_add, BitVec.setWidth_ofNat_of_le_of_lt (by decide) (by omega)]
          have seg : Outgoing stream base pcb.mss
              ⟨place, data.length, ⟨serial base place, chain.totLen, false, false, chain⟩⟩ := by
            refine ⟨carries, ?_, ?_⟩
            · rw [carries.tcplen]
              change data.length = chain.totLen.toNat + 0
              rw [totLen, seglen, Nat.add_zero]
            · change chain.totLen ≤ pcb.mss
              rw [totLen, BitVec.le_def, seglen]
              omega
          have alloc := tcpPbufPrealloc_spec pcb (BitVec.ofNat 16 data.length) pcb.mss flags.more
            firstSeg (by rw [BitVec.le_def, seglen]; omega)
          rw [seglen] at alloc
          rw [taken, dropped, built]
          dsimp only
          rw [number]
          split
          · rename_i wrong
            rcases unused with copy | zero | none_
            · exact absurd copy wrong.1
            · exact absurd zero wrong.2
            · simp [none_] at some_
          split
          · exact .inl rfl
          · rename_i fits
            obtain ⟨below, -⟩ := not_or.mp fits
            rw [gt_iff_lt, BitVec.not_lt] at below
            have counted : (queuelen + (pbufClen chain).setWidth 16).toNat =
                queuelen.toNat + chain.length := by
              rw [BitVec.le_def, limit] at few
              rw [BitVec.toNat_add, clen, Nat.mod_eq_of_lt (by omega)]
            -- a next segment finds no room left behind this one
            obtain ⟨oversize₁, over_, unused', room₁⟩ : ∃ oversize₁ : BitVec 16,
                (if flags.copy = true then pcb.tcpPbufPrealloc (BitVec.ofNat 16 data.length) pcb.mss
                  flags.more firstSeg else oversize) = oversize₁ ∧
                (flags.copy = true ∨ oversize₁ = 0 ∨ left = []) ∧
                (oversize₁ ≠ 0 → oversize₁.toNat + data.length ≤ pcb.mss.toNat) := by
              refine ⟨_, rfl, ?_, ?_⟩
              · by_cases copy : flags.copy = true
                · exact .inl copy
                · rw [if_neg copy]
                  rcases unused with copy' | zero | none_
                  · exact absurd copy' copy
                  · exact .inr (.inl zero)
                  · simp [none_] at some_
              · by_cases copy : flags.copy = true
                · rw [if_pos copy]
                  exact fun _ => alloc
                · rw [if_neg copy]
                  rcases unused with copy' | zero | none_
                  · exact absurd copy' copy
                  · exact fun some' => absurd zero some'
                  · simp [none_] at some_
            rw [over_]
            rcases ih false oversize₁ rest' below unused' with failed | written
            · rw [failed]
              exact .inl rfl
            · obtain ⟨pieces, queuelen', oversize', written, segments⟩ := written
              rw [written]
              refine .inr ⟨⟨place, data.length, ⟨serial base place, chain.totLen, false, false,
                chain⟩⟩ :: pieces, queuelen', oversize', rfl, ?_, ⟨rfl, ?_, ?_⟩, ?_, segments.few,
                fun none_ => absurd none_ (List.cons_ne_nil _ _), fun some' p last => ?_⟩
              · intro p member
                rcases List.mem_cons.mp member with rfl | member
                · exact seg
                · exact segments.outgoing p member
              · change 0 < data.length
                omega
              · rw [← total, ← Nat.add_assoc]
                exact segments.consecutive
              · rw [List.map_cons, clens_cons, segments.count, counted, Nat.add_assoc]
              · cases pieces with
                | nil =>
                    obtain rfl := Option.some_inj.mp last
                    rw [segments.same rfl] at some' ⊢
                    change _ + chain.totLen.toNat ≤ _
                    rw [totLen, seglen]
                    exact room₁ some'
                | cons q rest =>
                    rw [List.getLast?_cons_cons] at last
                    exact segments.room some' p last

/-! ## The last segment -/

/-- The last pbuf gets longer. -/
theorem growTail_spec (bytes : List (BitVec 8)) {chain : PbufChain} (sound : chain.Sound)
    (some_ : chain ≠ []) :
    (growTail bytes chain).Sound ∧ (growTail bytes chain).length = chain.length ∧
      (growTail bytes chain).bytes = chain.bytes ++ bytes := by
  induction chain with
  | nil => exact absurd rfl some_
  | cons p rest ih =>
      have sum : p.totLen + BitVec.ofNat 16 bytes.length =
          BitVec.ofNat 16 (PbufChain.bytes (p :: rest) ++ bytes).length := by
        rw [sound.1, List.length_append, BitVec.ofNat_add]
      cases rest with
      | nil =>
          refine ⟨⟨?_, trivial⟩, rfl, ?_⟩
          · simpa using sum
          · simp [growTail]
      | cons q rest =>
          obtain ⟨sound', length, grown⟩ := ih sound.2 (by simp)
          refine ⟨⟨?_, sound'⟩, ?_, ?_⟩
          · rw [sum]
            change _ = BitVec.ofNat 16 (p.payload ++ PbufChain.bytes (growTail bytes (q :: rest))).length
            rw [grown, PbufChain.bytes_cons, List.append_assoc]
          · exact congrArg (· + 1) length
          · change p.payload ++ PbufChain.bytes (growTail bytes (q :: rest)) = _
            rw [grown, PbufChain.bytes_cons p, List.append_assoc]

theorem pbufCat_length {h t chain : PbufChain} (cat : pbufCat h t = some chain) :
    chain.length = h.length + t.length := by
  induction h generalizing chain with
  | nil => cases cat
  | cons p rest ih =>
      cases rest with
      | nil =>
          rw [pbufCat] at cat
          split at cat
          · obtain rfl := Option.some_inj.mp cat
            simp [Nat.add_comm]
          · cases cat
      | cons q rest =>
          rw [pbufCat, Option.map_eq_some_iff] at cat
          obtain ⟨chain', cat, rfl⟩ := cat
          have length := ih cat
          simp only [List.length_cons] at length ⊢
          omega

/-- The bytes that come next go to the end of a segment. -/
theorem TcpSeg.Carries.longer {seg : TcpSeg} {place : Nat} {chain : PbufChain} {count : BitVec 16}
    (carries : seg.Carries stream base place) (open_ : seg.fin = false) (sound : chain.Sound)
    (some_ : chain ≠ [])
    (bytes : chain.bytes = seg.p.bytes ++ slice stream (place + seg.len.toNat) count.toNat)
    (within : place + seg.len.toNat + count.toNat ≤ stream.length)
    (short : seg.len.toNat + count.toNat < 2 ^ 16) :
    { seg with p := chain, len := seg.len + count }.Carries stream base place := by
  have length : (seg.len + count).toNat = seg.len.toNat + count.toNat := by
    rw [BitVec.toNat_add, Nat.mod_eq_of_lt short]
  have whole : chain.bytes = slice stream place (seg.len + count).toNat := by
    rw [bytes, length, slice_add, carries.bytes]
  refine ⟨carries.seqno, ?_, whole, ?_, fun finish => ?_, carries.syn, sound, some_⟩
  · rw [whole, slice, List.length_take, List.length_drop]
    change min _ _ = (seg.len + count).toNat
    omega
  · change place + (seg.len + count).toNat ≤ stream.length
    omega
  · change seg.fin = true at finish
    rw [open_] at finish
    cases finish

/-- What goes to the end of the last segment fits into it. -/
structure TailFits (pcb : TcpSendPcb) (last : TcpSeg) (len : BitVec 16) (flags : WriteFlags)
    (tail : TailWrite) : Prop where
  within : tail.oversizeUsed.toNat + tail.concat.toNat ≤ len.toNat
  room : last.len.toNat + tail.oversizeUsed.toNat + tail.concat.toNat + tail.oversize.toNat ≤
    pcb.mss.toNat
  unused : flags.copy = true ∨ tail.oversize = 0 ∨
    tail.oversizeUsed.toNat + tail.concat.toNat = len.toNat
  same : len = 0 → tail.oversize = pcb.unsentOversize

theorem writeTail_spec {last : TcpSeg} (len : BitVec 16) (flags : WriteFlags) (room : WriteRoom)
    (small : last.len ≤ pcb.mss)
    (fits : pcb.unsentOversize ≠ 0 →
      pcb.unsentOversize.toNat + last.len.toNat ≤ pcb.mss.toNat) :
    pcb.writeTail last len flags room = .error .mem ∨
      ∃ tail, pcb.writeTail last len flags room = .ok tail ∧ TailFits pcb last len flags tail := by
  have most : tcpMss = 1460 := rfl
  have space := BitVec.toNat_sub_of_le small
  rw [BitVec.le_def] at small
  obtain ⟨used, chosen, usedLen, usedOver, either⟩ : ∃ used : BitVec 16,
      (if pcb.unsentOversize < len then pcb.unsentOversize else len) = used ∧
        used.toNat ≤ len.toNat ∧ used.toNat ≤ pcb.unsentOversize.toNat ∧
        (used = pcb.unsentOversize ∨ used = len) := by
    refine ⟨_, rfl, ?_⟩
    split
    · rename_i less
      rw [BitVec.lt_def] at less
      exact ⟨less.le, le_rfl, .inl rfl⟩
    · rename_i more
      rw [BitVec.lt_def] at more
      exact ⟨le_rfl, by omega, .inr rfl⟩
  have fits' : pcb.unsentOversize.toNat + last.len.toNat ≤ pcb.mss.toNat := by
    by_cases none_ : pcb.unsentOversize = 0
    · rw [none_]
      simpa using small
    · exact fits none_
  have left : (pcb.unsentOversize - used).toNat = pcb.unsentOversize.toNat - used.toNat :=
    BitVec.toNat_sub_of_le usedOver
  have space' : (pcb.mss - last.len - used).toNat =
      pcb.mss.toNat - last.len.toNat - used.toNat := by
    rw [BitVec.toNat_sub_of_le, space]
    rw [BitVec.le_def, space]
    omega
  have done : pcb.unsentOversize - used = 0 ∨ used = len := by
    rcases either with same | same
    · exact .inl (by rw [same, sub_self])
    · exact .inr same
  rw [TcpSendPcb.writeTail]
  simp only [chosen]
  rw [if_neg (not_not_intro done)]
  split
  · rename_i more
    have less := more.1
    rw [BitVec.lt_def] at less
    have rest : (len - used).toNat = len.toNat - used.toNat := BitVec.toNat_sub_of_le usedLen
    obtain ⟨seglen, picked, few, many⟩ : ∃ seglen : BitVec 16,
        (if pcb.mss - last.len - used < len - used then pcb.mss - last.len - used
          else len - used) = seglen ∧ seglen.toNat ≤ len.toNat - used.toNat ∧
          seglen ≤ pcb.mss - last.len - used := by
      refine ⟨_, rfl, ?_⟩
      split
      · rename_i short
        rw [BitVec.lt_def, rest] at short
        exact ⟨short.le, BitVec.le_refl _⟩
      · rename_i long
        rw [BitVec.lt_def, rest] at long
        exact ⟨rest.le, by rw [BitVec.le_def, rest]; omega⟩
    have none_ : pcb.unsentOversize - used = 0 := by
      refine done.resolve_right ?_
      rintro rfl
      omega
    rw [picked]
    split
    · refine .inr ⟨_, rfl, ?_, ?_, ?_, ?_⟩
      · change used.toNat + seglen.toNat ≤ len.toNat
        omega
      · have alloc := tcpPbufPrealloc_spec pcb _ _ flags.more true many
        rw [BitVec.le_def] at many
        dsimp only
        split
        · omega
        · rw [none_]
          change _ + 0 ≤ _
          omega
      · by_cases copy : flags.copy = true
        · exact .inl copy
        · refine .inr (.inl ?_)
          exact (if_neg copy).trans none_
      · rintro rfl
        simp at less
    · exact .inl rfl
  · refine .inr ⟨_, rfl, ?_, ?_, ?_, ?_⟩
    · change used.toNat + 0 ≤ len.toNat
      omega
    · change last.len.toNat + used.toNat + 0 + (pcb.unsentOversize - used).toNat ≤ _
      omega
    · rcases done with zero | same
      · exact .inr (.inl zero)
      · exact .inr (.inr (by rw [same]; rfl))
    · rintro rfl
      have zero : used = 0 := BitVec.eq_of_toNat_eq (by simpa using usedLen)
      change pcb.unsentOversize - used = _
      rw [zero, BitVec.ofNat_eq_ofNat, BitVec.sub_zero]

/-- The last segment is extended with the bytes that come next. -/
theorem commitTail_spec {last : TcpSeg} {place : Nat} {len : BitVec 16} {tail : TailWrite}
    (carries : last.Carries stream base place) (open_ : last.fin = false)
    (mssMost : pcb.mss.toNat ≤ tcpMss) (length : len.toNat = arg.length)
    (fits : TailFits pcb last len flags tail)
    (continues : Continues stream (place + last.len.toNat) arg) :
    ∃ last', TcpSendPcb.commitTail last tail arg = .ok last' ∧ last'.Carries stream base place ∧
      last'.fin = false ∧
      last'.len.toNat = last.len.toNat + tail.oversizeUsed.toNat + tail.concat.toNat ∧
      last'.p.length = last.p.length + if tail.concat ≠ 0 then 1 else 0 := by
  have most : tcpMss = 1460 := rfl
  have within := fits.within
  have room := fits.room
  have inside := continues.within
  have usedLen : (arg.take tail.oversizeUsed.toNat).length = tail.oversizeUsed.toNat := by
    rw [List.length_take]
    omega
  -- the bytes that go to the end of its last pbuf
  obtain ⟨grown, grow, carries', open', len', clen⟩ : ∃ grown : TcpSeg,
      (if tail.oversizeUsed > 0 then
        { last with
          p := growTail (arg.take tail.oversizeUsed.toNat) last.p,
          len := last.len + tail.oversizeUsed }
      else last) = grown ∧ grown.Carries stream base place ∧ grown.fin = false ∧
        grown.len.toNat = last.len.toNat + tail.oversizeUsed.toNat ∧
        grown.p.length = last.p.length := by
    refine ⟨_, rfl, ?_⟩
    obtain ⟨sound, clen, bytes⟩ :=
      growTail_spec (arg.take tail.oversizeUsed.toNat) carries.sound carries.chain
    split
    · refine ⟨carries.longer open_ sound ?_ ?_ (by omega) (by omega), open_, ?_, clen⟩
      · intro none_
        rw [none_] at clen
        exact carries.chain (List.eq_nil_of_length_eq_zero clen.symm)
      · rw [bytes, continues.take _ (by omega)]
      · change (last.len + tail.oversizeUsed).toNat = _
        rw [BitVec.toNat_add, Nat.mod_eq_of_lt (by omega)]
    · rename_i none_
      rw [gt_iff_lt, BitVec.lt_def] at none_
      exact ⟨carries, open_, by simpa using none_, rfl⟩
  rw [TcpSendPcb.commitTail]
  simp only [grow]
  by_cases some_ : tail.concat = 0
  · rw [if_neg (not_not_intro some_), if_neg (not_not_intro some_)]
    refine ⟨grown, rfl, carries', open', ?_, clen⟩
    rw [len', some_]
    rfl
  -- the pbuf that is chained to it
  · rw [if_pos some_, if_pos some_]
    obtain ⟨data, taken⟩ : ∃ data,
        (arg.drop tail.oversizeUsed.toNat).take tail.concat.toNat = data := ⟨_, rfl⟩
    have dataLen : data.length = tail.concat.toNat := by
      rw [← taken, List.length_take, List.length_drop]
      omega
    have sound : PbufChain.Sound [⟨data, tail.concat⟩] := by
      refine ⟨?_, trivial⟩
      rw [PbufChain.bytes_cons, PbufChain.bytes_nil, List.append_nil, dataLen, BitVec.ofNat_toNat,
        BitVec.setWidth_eq]
    obtain ⟨chain, cat, sound', bytes⟩ := pbufCat_spec carries'.sound sound carries'.chain
    have clen' := pbufCat_length cat
    rw [taken, cat]
    refine ⟨_, rfl, carries'.longer open' sound' ?_ ?_ ?_ ?_, open', ?_, ?_⟩
    · rintro rfl
      simp at clen'
    · have next := (continues.drop tail.oversizeUsed.toNat (by omega)).take
        tail.concat.toNat (by rw [List.length_drop]; omega)
      rw [bytes, PbufChain.bytes_cons, PbufChain.bytes_nil, List.append_nil, ← taken, next, len',
        Nat.add_assoc]
    · rw [len']
      omega
    · rw [len']
      omega
    · change (grown.len + tail.concat).toNat = _
      rw [BitVec.toNat_add, len', Nat.mod_eq_of_lt (by omega)]
    · change chain.length = _
      rw [clen', clen]
      rfl

/-! ## Writing -/

/-- More of the stream is in the queues. -/
theorem Sends.grown {waiting' : List (Portion TcpSeg)} (oversize queuelen : BitVec 16)
    (sends : Sends stream base acked next total true held waiting pcb)
    (continues : Continues stream total arg) (room : arg.length ≤ pcb.sndBuf.toNat)
    (queues : Queues held waiting' acked (total + arg.length))
    (outgoing : ∀ p ∈ waiting', Outgoing stream base pcb.mss p)
    (count : queuelen.toNat = clens pcb.unacked + clens (waiting'.map Portion.value))
    (few : queuelen ≤ tcpSndQueuelen)
    (last : oversize ≠ 0 → ∀ p ∈ waiting'.getLast?, next < p.stop ∧
      oversize.toNat + p.value.len.toNat ≤ pcb.mss.toNat) :
    Sends stream base acked next (total + arg.length) true held waiting'
      { pcb with
        unsent := waiting'.map Portion.value, unsentOversize := oversize,
        sndLbb := pcb.sndLbb + (BitVec.ofNat 16 arg.length).setWidth 32,
        sndBuf := pcb.sndBuf - BitVec.ofNat 16 arg.length, sndQueuelen := queuelen } := by
  obtain ⟨lbb, buf, -, -⟩ := sends.writes rfl
  have bound := pcb.sndBuf.isLt
  have sent := sends.sent
  have length : (BitVec.ofNat 16 arg.length).toNat = arg.length := by
    rw [BitVec.toNat_ofNat, Nat.mod_eq_of_lt (by omega)]
  refine ⟨sends.unacked, rfl, fun p member => ?_, queues, sends.lastack, sends.sndNxt,
    sends.started, by omega, sends.heldSent, by omega, sends.mss, sends.mssMost, ?_, few,
    fun _ => ⟨?_, ?_, continues.within, last⟩⟩
  · rcases List.mem_append.mp member with member | member
    · exact sends.outgoing p (List.mem_append_left _ member)
    · exact outgoing p member
  · change queuelen.toNat = clens (pcb.unacked ++ waiting'.map Portion.value)
    rw [count, clens_append]
  · change pcb.sndLbb + (BitVec.ofNat 16 arg.length).setWidth 32 = _
    rw [lbb, serial_add, BitVec.setWidth_ofNat_of_le_of_lt (by decide) (by omega)]
  · change (pcb.sndBuf - BitVec.ofNat 16 arg.length).toNat + (total + arg.length) = _
    rw [BitVec.toNat_sub_of_le (by rw [BitVec.le_def, length]; exact room), length]
    omega

/-- While more can be written, no FIN is in the queues. -/
theorem Sends.open_ (sends : Sends stream base acked next total true held waiting pcb)
    (member : p ∈ held ++ waiting) : p.value.fin = false := by
  have outgoing := sends.outgoing p member
  have upper := (sends.queues.within p member).2
  have within := (sends.writes rfl).within
  have count := outgoing.count
  rw [outgoing.carries.tcplen] at count
  rw [Portion.stop] at upper
  cases finish : p.value.fin with
  | false => rfl
  | true =>
      have ends := outgoing.carries.fin finish
      rw [finish, if_pos rfl] at count
      omega

/-- `tcp_write` puts the bytes behind the others or refuses, and its assertions hold. -/
theorem queueData_spec (flags : WriteFlags) (room : WriteRoom)
    (sends : Sends stream base acked next total true held waiting pcb) (settled : pcb.Settled true)
    (ordered : pcb.Ordered) (continues : Continues stream total arg)
    (fits : arg.length ≤ pcb.sndBuf.toNat)
    (few : arg ≠ [] → pcb.sndQueuelen < tcpSndQueuelen) :
    pcb.queueData arg flags room = .error .mem ∨
      ∃ pcb' waiting', pcb.queueData arg flags room = .ok pcb' ∧
        Sends stream base acked next (total + arg.length) true held waiting' pcb' ∧
        pcb'.Settled true ∧ pcb'.state = pcb.state := by
  obtain ⟨lbb, -, -, oversize⟩ := sends.writes rfl
  have most : tcpSndQueuelen.toNat = 5 := rfl
  have mss : tcpMss = 1460 := rfl
  have mssMost := sends.mssMost
  have count := sends.queuelen
  have bound := pcb.sndBuf.isLt
  have sent := sends.sent
  rw [clens_append] at count
  have length : (BitVec.ofNat 16 arg.length).toNat = arg.length := by
    rw [BitVec.toNat_ofNat, Nat.mod_eq_of_lt (by omega)]
  rw [TcpSendPcb.queueData]
  rcases List.eq_nil_or_concat waiting with rfl | ⟨front, p, rfl⟩
  · have none_ : pcb.unsent = [] := sends.unsent
    rw [none_, List.getLast?_nil]
    dsimp only
    rw [if_pos (settled rfl none_), lbb]
    rcases writeSegments_spec flags room.segments true 0 sends.mss mssMost continues sends.few
      (.inr (.inl rfl)) with failed | written
    · rw [failed]
      exact .inl rfl
    · obtain ⟨pieces, queuelen', oversize', written, segments⟩ := written
      rw [written, ← lbb]
      refine .inr ⟨_, pieces, rfl, sends.grown oversize' queuelen' continues fits
        (sends.queues.appendAll segments.consecutive) segments.outgoing ?_ segments.few
        fun some_ q last => ⟨?_, segments.room some_ q last⟩, fun _ none_ => ?_, rfl⟩
      · rw [segments.count, count, none_, clens_nil, Nat.add_zero]
      · exact sent.trans_lt (segments.consecutive.lt_last last)
      · exact segments.same (List.map_eq_nil_iff.mp none_)
  · rw [List.concat_eq_append] at *
    have own : p ∈ held ++ (front ++ [p]) := by simp
    have outgoing := sends.outgoing p own
    have carries := outgoing.carries
    have finish := sends.open_ own
    have ends := sends.queues.last_stop (sends.ordered ordered)
    have span : p.stop = p.place + p.value.len.toNat := by
      rw [Portion.stop, outgoing.count, carries.tcplen, finish]
      rfl
    have parts : pcb.unsent = front.map Portion.value ++ [p.value] := by
      rw [sends.unsent, List.map_append]
      rfl
    have here : total = p.place + p.value.len.toNat := ends.symm.trans span
    rw [parts, List.getLast?_concat]
    dsimp only
    rcases writeTail_spec (BitVec.ofNat 16 arg.length) flags room outgoing.small
      (fun some_ => (oversize some_ p (by simp)).2) with failed | ⟨tail, wrote, extends_⟩
    · rw [failed]
      exact .inl rfl
    rw [wrote]
    have within := extends_.within
    have small := extends_.room
    rw [length] at within
    obtain ⟨pos, reached, posLen⟩ : ∃ pos, tail.oversizeUsed + tail.concat = pos ∧
        pos.toNat = tail.oversizeUsed.toNat + tail.concat.toNat := by
      refine ⟨_, rfl, ?_⟩
      rw [BitVec.toNat_add, Nat.mod_eq_of_lt (by omega)]
    have number : pcb.sndLbb + pos.setWidth 32 = serial base (total + pos.toNat) := by
      rw [lbb, serial_add, BitVec.ofNat_toNat]
    obtain ⟨queuelen, counted, few', queuelenLen⟩ : ∃ queuelen : BitVec 16,
        (pcb.sndQueuelen + if tail.concat ≠ 0 then 1 else 0) = queuelen ∧
          queuelen ≤ tcpSndQueuelen ∧
          queuelen.toNat = pcb.sndQueuelen.toNat + if tail.concat ≠ 0 then 1 else 0 := by
      refine ⟨_, rfl, ?_⟩
      by_cases none_ : tail.concat = 0
      · rw [if_neg (not_not_intro none_), if_neg (not_not_intro none_), BitVec.ofNat_eq_ofNat,
          BitVec.add_zero]
        exact ⟨sends.few, rfl⟩
      · have some_ : 0 < tail.concat.toNat := by
          rw [Nat.pos_iff_ne_zero]
          exact fun zero => none_ (BitVec.eq_of_toNat_eq zero)
        have less := few (by rintro rfl; simp at within; omega)
        rw [BitVec.lt_def, most] at less
        have one : (pcb.sndQueuelen + 1).toNat = pcb.sndQueuelen.toNat + 1 := by
          rw [BitVec.toNat_add]
          exact Nat.mod_eq_of_lt (by simp; omega)
        rw [if_pos none_, if_pos none_, BitVec.le_def, one, most]
        exact ⟨by omega, rfl⟩
    have unused : flags.copy = true ∨ tail.oversize = 0 ∨ arg.drop pos.toNat = [] := by
      refine extends_.unused.imp_right fun either => either.imp_right fun all => ?_
      rw [length] at all
      exact List.drop_eq_nil_of_le (by omega)
    have rest := continues.drop pos.toNat (by omega)
    have left : total + pos.toNat + (arg.drop pos.toNat).length = total + arg.length := by
      rw [List.length_drop]
      omega
    dsimp only [bind, Except.bind]
    rw [reached, number, counted]
    rcases writeSegments_spec flags room.segments true tail.oversize sends.mss mssMost rest few'
      unused with failed | written
    · rw [failed]
      exact .inl rfl
    obtain ⟨pieces, queuelen', oversize', written, segments⟩ := written
    rw [left] at segments
    rw [here] at continues
    obtain ⟨last', commit, carries', open', len', clen'⟩ :=
      commitTail_spec carries finish mssMost length extends_ continues
    rw [written]
    dsimp only
    rw [commit, List.dropLast_concat]
    have stop' : (⟨p.place, last'.len.toNat, last'⟩ : Portion TcpSeg).stop =
        total + pos.toNat := by
      change p.place + last'.len.toNat = _
      omega
    have queues := (sends.queues.extend ends ⟨p.place, last'.len.toNat, last'⟩ rfl
      (Nat.le_add_right _ _) stop').appendAll segments.consecutive
    have outgoing' : Outgoing stream base pcb.mss ⟨p.place, last'.len.toNat, last'⟩ := by
      refine ⟨carries', ?_, ?_⟩
      · rw [carries'.tcplen, open']
        rfl
      · change last'.len ≤ _
        rw [BitVec.le_def]
        omega
    have values (q : Portion TcpSeg) : (front ++ [q] ++ pieces).map Portion.value =
        front.map Portion.value ++ q.value :: pieces.map Portion.value := by
      simp
    have sends' := sends.grown oversize' queuelen'
      (by rwa [here]) fits queues (fun q member => ?_) ?_ segments.few fun some_ q last => ?_
    · rw [values] at sends'
      exact .inr ⟨_, _, rfl, sends', fun _ none_ => by simp at none_, rfl⟩
    · rcases List.mem_append.mp member with member | member
      · rcases List.mem_append.mp member with member | single
        · exact sends.outgoing q (by simp [member])
        · rw [List.mem_singleton.mp single]
          exact outgoing'
      · exact segments.outgoing q member
    · have before : clens pcb.unsent = clens (front.map Portion.value) + p.value.p.length := by
        rw [parts, clens_append, clens_cons, clens_nil, Nat.add_zero]
      rw [values, clens_append, clens_cons, segments.count, queuelenLen, count, before, clen']
      omega
    · rw [List.getLast?_append] at last
      cases shape : pieces.getLast? with
      | some r =>
          rw [shape] at last
          obtain rfl : r = q := Option.some_inj.mp last
          exact ⟨by have := segments.consecutive.lt_last shape; omega, segments.room some_ r shape⟩
      | none =>
          have none_ := List.getLast?_eq_none_iff.mp shape
          rw [shape, List.getLast?_concat] at last
          obtain rfl := Option.some_inj.mp last
          rw [segments.same none_] at some_ ⊢
          have all : pos.toNat = arg.length := by
            have none' := segments.consecutive
            rw [none_] at none'
            have same : total + pos.toNat = total + arg.length := none'
            omega
          rw [stop']
          change _ ∧ tail.oversize.toNat + last'.len.toNat ≤ _
          refine ⟨?_, by omega⟩
          rcases Nat.eq_zero_or_pos arg.length with zero | more
          · have same := extends_.same (BitVec.eq_of_toNat_eq (by rw [length, zero]; rfl))
            rw [same] at some_
            have later := (oversize some_ p (by simp)).1
            omega
          · omega

/-- Only an empty queue has no pbufs. -/
theorem Sends.empty_iff (sends : Sends stream base acked next total opened held waiting pcb) :
    pcb.sndQueuelen = 0 ↔ pcb.unacked = [] ∧ pcb.unsent = [] := by
  have count := sends.queuelen
  have filled : ∀ seg ∈ pcb.unacked ++ pcb.unsent, seg.p ≠ [] := by
    rw [sends.unacked, sends.unsent, ← List.map_append]
    intro seg member
    obtain ⟨p, inside, rfl⟩ := List.mem_map.mp member
    exact (sends.outgoing p inside).carries.chain
  rw [← List.append_eq_nil_iff]
  constructor
  · intro zero
    rw [zero] at count
    cases shape : pcb.unacked ++ pcb.unsent with
    | nil => rfl
    | cons seg rest =>
        have some_ := List.length_pos_iff.mpr (filled seg (shape ▸ List.mem_cons_self))
        rw [shape, clens_cons] at count
        simp at count
        omega
  · intro none_
    rw [none_] at count
    exact BitVec.eq_of_toNat_eq count

theorem Sends.validQueuelen (sends : Sends stream base acked next total opened held waiting pcb) :
    pcb.validQueuelen = true := by
  rw [TcpSendPcb.validQueuelen, decide_eq_true_iff, ← not_and_or, ← sends.empty_iff]
  exact em _

theorem writeData_ok {room : WriteRoom} (wrote : pcb.writeData arg flags room = .ok pcb') :
    pcb.queueData arg flags room = .ok pcb' := by
  rw [TcpSendPcb.writeData] at wrote
  split at wrote
  · rename_i queued
    split at wrote
    · rwa [queued]
    · cases wrote
  · split at wrote
    · cases wrote
    · cases wrote
  · cases wrote

/-- A call that refuses leaves the data as it is. -/
theorem tcpWrite_cases {room : WriteRoom} {result : Except SendError Unit}
    (wrote : pcb.tcpWrite arg flags room = some (pcb', result)) :
    result = .ok () ∧ pcb.tcpWriteChecks (BitVec.ofNat 16 arg.length) = .ok () ∧
        pcb.queueData arg flags room = .ok pcb' ∨
      (∃ error, result = .error error) ∧ pcb.SameData pcb' ∧ pcb'.state = pcb.state := by
  rw [TcpSendPcb.tcpWrite] at wrote
  cases checks : pcb.tcpWriteChecks (BitVec.ofNat 16 arg.length) with
  | error error =>
      rw [checks] at wrote
      cases error with
      | conn =>
          cases wrote
          exact .inr ⟨⟨_, rfl⟩, ⟨rfl, rfl, rfl, rfl, rfl, rfl, rfl, rfl, rfl⟩, rfl⟩
      | mem =>
          cases wrote
          exact .inr ⟨⟨_, rfl⟩, ⟨rfl, rfl, rfl, rfl, rfl, rfl, rfl, rfl, rfl⟩, rfl⟩
      | assertion => cases wrote
  | ok _ =>
      rw [checks] at wrote
      cases queued : pcb.writeData arg flags room with
      | error error =>
          simp only [bind, Except.bind, queued] at wrote
          cases error with
          | conn =>
              cases wrote
              exact .inr ⟨⟨_, rfl⟩, ⟨rfl, rfl, rfl, rfl, rfl, rfl, rfl, rfl, rfl⟩, rfl⟩
          | mem =>
              cases wrote
              exact .inr ⟨⟨_, rfl⟩, ⟨rfl, rfl, rfl, rfl, rfl, rfl, rfl, rfl, rfl⟩, rfl⟩
          | assertion => cases wrote
      | ok queue =>
          simp only [bind, Except.bind, queued] at wrote
          cases wrote
          exact .inl ⟨rfl, rfl, writeData_ok queued⟩

theorem tcpWriteChecks_room (short : arg.length < 2 ^ 16)
    (checks : pcb.tcpWriteChecks (BitVec.ofNat 16 arg.length) = .ok ()) :
    pcb.writable = true ∧ arg.length ≤ pcb.sndBuf.toNat ∧
      (arg ≠ [] → pcb.sndQueuelen < tcpSndQueuelen) := by
  have length : (BitVec.ofNat 16 arg.length).toNat = arg.length := by
    rw [BitVec.toNat_ofNat, Nat.mod_eq_of_lt short]
  rw [TcpSendPcb.tcpWriteChecks] at checks
  split at checks
  · cases checks
  rename_i writable
  rw [not_not] at writable
  split at checks
  · rename_i none_
    rw [none_] at length
    have zero : arg.length = 0 := length.symm
    exact ⟨writable, by omega, fun some_ => absurd (List.eq_nil_of_length_eq_zero zero) some_⟩
  split at checks
  · cases checks
  rename_i fits
  rw [gt_iff_lt, BitVec.not_lt, BitVec.le_def, length] at fits
  split at checks
  · cases checks
  rename_i few
  exact ⟨writable, fits, fun _ => BitVec.not_le.mp (not_or.mp few).1⟩

/-- The checks of `tcp_write` find the queues as their length says. -/
theorem tcpWriteChecks_valid (len : BitVec 16)
    (sends : Sends stream base acked next total opened held waiting pcb) :
    pcb.tcpWriteChecks len ≠ .error .assertion := by
  rw [TcpSendPcb.tcpWriteChecks]
  split
  · nofun
  split
  · nofun
  split
  · nofun
  split
  · nofun
  split
  · rename_i some_
    split
    · nofun
    · rename_i none_
      rw [not_or, not_not, not_not] at none_
      exact absurd (sends.empty_iff.mpr none_) some_
  · rename_i none_
    rw [if_pos (sends.empty_iff.mp (not_not.mp none_))]
    nofun

/-- `tcp_write` returns, and what it has accepted is in the queues. -/
theorem tcpWrite_spec (flags : WriteFlags) (room : WriteRoom)
    (sends : Sends stream base acked next total true held waiting pcb) (settled : pcb.Settled true)
    (ordered : pcb.Ordered) (continues : Continues stream total arg) (short : arg.length < 2 ^ 16) :
    ∃ pcb' result, pcb.tcpWrite arg flags room = some (pcb', result) ∧
      (result = .ok () → ∃ waiting',
        Sends stream base acked next (total + arg.length) true held waiting' pcb' ∧
        pcb'.Settled true ∧ pcb'.state = pcb.state) := by
  have valid := tcpWriteChecks_valid (BitVec.ofNat 16 arg.length) sends
  rw [TcpSendPcb.tcpWrite]
  cases checks : pcb.tcpWriteChecks (BitVec.ofNat 16 arg.length) with
  | error error =>
      cases error with
      | conn => exact ⟨_, _, rfl, nofun⟩
      | mem => exact ⟨_, _, rfl, nofun⟩
      | assertion => exact absurd checks valid
  | ok _ =>
      obtain ⟨-, fits, few⟩ := tcpWriteChecks_room short checks
      simp only [bind, Except.bind, TcpSendPcb.writeData]
      rcases queueData_spec flags room sends settled ordered continues fits few with
        failed | queued
      · rw [failed]
        dsimp only
        rw [if_pos sends.validQueuelen]
        exact ⟨_, _, rfl, nofun⟩
      · obtain ⟨pcb', waiting', queued, sends', settled', state⟩ := queued
        rw [queued]
        dsimp only
        rw [if_pos sends'.validQueuelen]
        exact ⟨_, _, rfl, fun _ => ⟨waiting', sends', settled', state⟩⟩

end RtThread.Lwip
