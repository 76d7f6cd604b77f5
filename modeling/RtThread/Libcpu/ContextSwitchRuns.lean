import RtThread.Libcpu.ContextSwitch
import RtThread.Std.Simulation

/-!
# Every thread has a processor of its own

The registers and the stack of a thread that is not running are what its `sp` leads to. Whenever it
runs again, it finds them as it has left them, whatever other threads and handlers have done.
-/

namespace RtThread

open RtThread.Std

universe u

variable {memory memory' : Nat → BitVec 32} {place frame psp sp top size : Nat}
  {words stack : List (BitVec 32)} {context : StackContext} {saved : CalleeSaved} {stkAlign : Bool}

/-! ## Registers in memory -/

theorem StackContext.words_injective {context' : StackContext}
    (same : context.words = context'.words) : context = context' := by
  obtain ⟨r0, r1, r2, r3, r12, lr, pc, psr⟩ := context
  simp only [StackContext.words, List.cons.injEq] at same
  obtain ⟨rfl, rfl, rfl, rfl, rfl, rfl, rfl, rfl, -⟩ := same
  rfl

theorem StackContext.words_load : (StackContext.load memory place).words =
    loadWords memory place 8 := rfl

theorem StackContext.load_same (same : SameWords memory memory' place (place + 8)) :
    StackContext.load memory place = StackContext.load memory' place := by
  apply StackContext.words_injective
  rw [StackContext.words_load, StackContext.words_load, loadWords_same same]

/-- What has been stored is loaded. -/
theorem StackContext.load_storeWords :
    StackContext.load (storeWords memory place context.words) place = context := by
  apply StackContext.words_injective
  rw [StackContext.words_load, ← context.length_words, loadWords_storeWords]

theorem CalleeSaved.words_injective {saved' : CalleeSaved}
    (same : saved.words = saved'.words) : saved = saved' := by
  obtain ⟨r4, r5, r6, r7, r8, r9, r10, r11⟩ := saved
  simp only [CalleeSaved.words, List.cons.injEq] at same
  obtain ⟨rfl, rfl, rfl, rfl, rfl, rfl, rfl, rfl, -⟩ := same
  rfl

theorem CalleeSaved.words_load : (CalleeSaved.load memory place).words =
    loadWords memory place 8 := rfl

theorem CalleeSaved.load_same (same : SameWords memory memory' place (place + 8)) :
    CalleeSaved.load memory place = CalleeSaved.load memory' place := by
  apply CalleeSaved.words_injective
  rw [CalleeSaved.words_load, CalleeSaved.words_load, loadWords_same same]

theorem CalleeSaved.load_storeWords :
    CalleeSaved.load (storeWords memory place saved.words) place = saved := by
  apply CalleeSaved.words_injective
  rw [CalleeSaved.words_load, ← saved.length_words, loadWords_storeWords]

/-! ## Frames -/

theorem psr_free {psr : BitVec 32} (free : psr.getLsbD 9 = false) :
    psr &&& ~~~0x200#32 = psr := by
  have bit : (0x200#32 : BitVec 32) = BitVec.twoPow 32 9 := by decide
  rw [bit]
  apply BitVec.eq_of_getLsbD_eq
  intro i inside
  by_cases nine : i = 9
  · subst nine
    simpa using free
  · simp [inside, nine]

/-- The mark of the free word can be put into the status and taken off again. -/
theorem psr_unmarked {psr : BitVec 32} (free : psr.getLsbD 9 = false) (mark : Bool) :
    (psr &&& ~~~0x200#32 ||| if mark then 0x200#32 else 0#32) &&& ~~~0x200#32 = psr ∧
      (psr &&& ~~~0x200#32 ||| if mark then 0x200#32 else 0#32).getLsbD 9 = mark := by
  rw [psr_free free]
  cases mark with
  | false => exact ⟨by rw [if_neg Bool.false_ne_true, BitVec.or_zero, psr_free free], by simpa using free⟩
  | true =>
      refine ⟨?_, by simp⟩
      rw [if_pos rfl, BitVec.and_or_distrib_right, psr_free free]
      exact BitVec.or_zero

/-- The frame of an exception, with the stack of the thread above it. -/
structure Framed (stkAlign : Bool) (memory : Nat → BitVec 32) (frame top : Nat)
    (context : StackContext) (stack : List (BitVec 32)) : Prop where
  pops : popFrame stkAlign memory frame = (context, top - stack.length)
  below : frame + 8 ≤ top - stack.length
  fits : stack.length ≤ top
  stack : loadWords memory (top - stack.length) stack.length = stack

theorem Framed.same (framed : Framed stkAlign memory frame top context stack)
    (same : SameWords memory memory' frame top) :
    Framed stkAlign memory' frame top context stack := by
  obtain ⟨pops, below, fits, stacked⟩ := framed
  refine ⟨?_, below, fits, ?_⟩
  · rw [← pops, popFrame, popFrame, StackContext.load_same (same.mono le_rfl (by omega))]
  · rw [← loadWords_same (same.mono (by omega) (by omega)), stacked]

/-- An exception stores a frame below the stack of the thread. -/
theorem pushFrame_spec (stkAlign : Bool) (fits : stack.length ≤ top) (room : 9 ≤ top - stack.length)
    (free : context.psr.getLsbD 9 = false)
    (stacked : loadWords memory (top - stack.length) stack.length = stack) :
    ∃ memory' frame,
      pushFrame stkAlign memory (top - stack.length) context = (memory', frame) ∧
        Framed stkAlign memory' frame top context stack ∧ top - stack.length ≤ frame + 9 ∧
        ∀ low high, high ≤ frame ∨ top - stack.length ≤ low →
          SameWords memory memory' low high := by
  rw [pushFrame]
  set psp := top - stack.length with psp_eq
  set odd := stkAlign && psp % 2 == 1 with odd_eq
  obtain ⟨unmarked, marked⟩ := psr_unmarked free odd
  set psr := context.psr &&& ~~~0x200#32 ||| if odd then 0x200#32 else 0#32
  set frame := if odd then psp - 9 else psp - 8 with frame_eq
  have bounds : psp ≤ frame + 9 ∧ frame + 8 ≤ psp := by
    rw [frame_eq]
    split <;> omega
  have apart (low high : Nat) (outside : high ≤ frame ∨ psp ≤ low) : SameWords memory
      (storeWords memory frame { context with psr }.words) low high :=
    storeWords_same (outside.imp_right bounds.2.trans)
  refine ⟨_, _, rfl, ⟨?_, bounds.2, fits, ?_⟩, bounds.1, apart⟩
  · rw [popFrame, StackContext.load_storeWords]
    simp only [marked, unmarked, Prod.mk.injEq, true_and]
    cases aligned : stkAlign with
    | false => simp [frame_eq, odd_eq, aligned]; omega
    | true =>
        simp only [Bool.true_and]
        rw [frame_eq]
        split <;> omega
  · rw [← loadWords_same (apart _ _ (.inr le_rfl)), stacked]

/-- A frame without the mark of a free word, as `rt_hw_stack_init` stores it. -/
theorem Framed.of_load (free : context.psr.getLsbD 9 = false) (below : 8 ≤ top)
    (loaded : StackContext.load memory (top - 8) = context) :
    Framed stkAlign memory (top - 8) top context [] := by
  refine ⟨?_, by simp; omega, Nat.zero_le _, rfl⟩
  rw [popFrame, loaded, free, Bool.and_false, psr_free free, if_neg Bool.false_ne_true]
  simp only [List.length_nil, Nat.sub_zero, Nat.sub_add_cancel below]

/-! ## What the memory stands for -/

/-- A thread that is not running, whose `sp` leads to its registers. -/
structure SavedAt (stkAlign : Bool) (memory : Nat → BitVec 32) (sp top size : Nat)
    (own : ThreadContext) : Prop where
  saved : CalleeSaved.load memory sp = own.saved
  framed : Framed stkAlign memory (sp + 8) top own.context own.stack
  within : top - size ≤ sp

theorem SavedAt.same {own : ThreadContext} (at_ : SavedAt stkAlign memory sp top size own)
    (same : SameWords memory memory' (top - size) top) :
    SavedAt stkAlign memory' sp top size own := by
  obtain ⟨saved, framed, within⟩ := at_
  have below := framed.below
  refine ⟨?_, framed.same (same.mono (by omega) le_rfl), within⟩
  rw [← CalleeSaved.load_same (same.mono (by omega) (by omega)), saved]

/-- The thread that is running, while its own code does. -/
structure LiveAt (memory : Nat → BitVec 32) (psp : Nat) (context : StackContext)
    (saved : CalleeSaved) (top : Nat) (own : ThreadContext) : Prop where
  context : context = own.context
  saved : saved = own.saved
  psp : psp = top - own.stack.length
  stack : loadWords memory (top - own.stack.length) own.stack.length = own.stack

/-- The thread that is running, while a handler does. -/
structure EnteredAt (stkAlign : Bool) (memory : Nat → BitVec 32) (psp : Nat) (saved : CalleeSaved)
    (top size : Nat) (own : ThreadContext) : Prop where
  saved : saved = own.saved
  framed : Framed stkAlign memory psp top own.context own.stack
  within : top - size + 8 ≤ psp

/-- There is room on the stack for what an exception and PendSV store. -/
structure ThreadContext.Roomy (own : ThreadContext) (size : Nat) : Prop where
  free : own.context.psr.getLsbD 9 = false
  room : own.stack.length + 17 ≤ size

variable {Thread : Type u} [DecidableEq Thread] {layout : StackLayout Thread} {cpu cpu' : Cpu Thread}
  {threads threads' : Threads Thread} {thread other : Thread} {own : ThreadContext}

omit [DecidableEq Thread] in
/-- What is stored on one stack leaves the others as they are. -/
theorem StackLayout.same (layout : StackLayout Thread) (ne : thread ≠ other)
    (lower : layout.top thread - layout.size thread ≤ place)
    (upper : place + words.length ≤ layout.top thread) :
    SameWords memory (storeWords memory place words) (layout.top other - layout.size other)
      (layout.top other) := by
  apply storeWords_same
  have apart := layout.apart thread other ne
  omega

/-- The processor stands for the threads. -/
structure Represents (stkAlign : Bool) (layout : StackLayout Thread) (cpu : Cpu Thread)
    (threads : Threads Thread) : Prop where
  mode : cpu.mode = threads.mode
  primask : cpu.primask = threads.primask
  pendSvSet : cpu.pendSvSet = threads.pendSvSet
  current : cpu.interruptToThread = threads.current
  created : ∀ thread, threads.current = some thread → threads.contexts thread ≠ none
  /-- A switch has been asked for and not been made. -/
  asked : cpu.switchInterruptFlag = true → cpu.interruptFromThread = threads.running ∧
    (threads.pendSvSet = true ∨ threads.mode = .pendSv) ∧ threads.mode ≠ .main
  quiet : cpu.switchInterruptFlag = false → threads.running = threads.current
  started : threads.current = none ↔ threads.mode = .main
  roomy : ∀ thread own, threads.contexts thread = some own → own.Roomy (layout.size thread)
  waiting : ∀ thread own, threads.contexts thread = some own → threads.running ≠ some thread →
    SavedAt stkAlign cpu.memory (cpu.sp thread) (layout.top thread) (layout.size thread) own
  running : ∀ thread, threads.running = some thread → ∃ own, threads.contexts thread = some own ∧
    (threads.mode = .thread →
      LiveAt cpu.memory cpu.psp cpu.context cpu.saved (layout.top thread) own) ∧
    (threads.mode ≠ .thread → EnteredAt stkAlign cpu.memory cpu.psp cpu.saved (layout.top thread)
      (layout.size thread) own)
  idle : threads.mode = .thread → threads.running ≠ none

theorem ThreadEntry.start_free (entry : ThreadEntry) :
    entry.start.context.psr.getLsbD 9 = false := by
  change (0x01000000#32 : BitVec 32).getLsbD 9 = false
  decide

theorem LiveAt.same {own : ThreadContext} (live : LiveAt memory psp context saved top own)
    (roomy : own.Roomy size) (fits : size ≤ top)
    (same : SameWords memory memory' (top - size) top) :
    LiveAt memory' psp context saved top own := by
  have room := roomy.room
  refine { live with stack := ?_ }
  rw [← loadWords_same (same.mono (by omega) (by omega)), live.stack]

theorem EnteredAt.same {own : ThreadContext}
    (entered : EnteredAt stkAlign memory psp saved top size own)
    (same : SameWords memory memory' (top - size) top) :
    EnteredAt stkAlign memory' psp saved top size own := by
  have within := entered.within
  exact { entered with framed := entered.framed.same (same.mono (by omega) le_rfl) }

/-! ## Steps -/

/-- The stack of a new thread. -/
theorem rtHwStackInit_spec (stkAlign : Bool) (entry : ThreadEntry) (room : 17 ≤ size)
    (fits : size ≤ top) (memory : Nat → BitVec 32) :
    SavedAt stkAlign (rtHwStackInit memory entry (top - 1)).1
        (rtHwStackInit memory entry (top - 1)).2 top size entry.start ∧
      (rtHwStackInit memory entry (top - 1)).2 = top - 16 := by
  have place : top - 1 - 15 = top - 16 := by omega
  have words : ([0, 0, 0, 0, 0, 0, 0, 0] ++ [entry.parameter, 0, 0, 0, 0, entry.texit, entry.tentry,
      0x01000000] : List (BitVec 32)) = entry.start.saved.words ++ entry.context.words := rfl
  have loaded : loadWords (storeWords memory (top - 16)
      (entry.start.saved.words ++ entry.context.words)) (top - 16) (8 + 8) =
        entry.start.saved.words ++ entry.context.words := loadWords_storeWords
  obtain ⟨high, low⟩ := List.append_inj (loadWords_add.symm.trans loaded)
    (length_loadWords.trans entry.start.saved.length_words.symm)
  rw [rtHwStackInit, words, place]
  refine ⟨⟨CalleeSaved.words_injective high, ?_, ?_⟩, rfl⟩
  · have next : top - 16 + 8 = top - 8 := by omega
    rw [next] at low ⊢
    exact Framed.of_load entry.start_free (by omega) (StackContext.words_injective low)
  · change top - size ≤ top - 16
    omega

theorem represents_create {entry : ThreadEntry} (represents : Represents stkAlign layout cpu threads)
    (apart : threads.running ≠ some thread) (room : 17 ≤ layout.size thread) :
    Represents stkAlign layout
      { cpu with
        memory := (rtHwStackInit cpu.memory entry (layout.top thread - 1)).1
        sp := Function.update cpu.sp thread
          (rtHwStackInit cpu.memory entry (layout.top thread - 1)).2 }
      { threads with contexts := Function.update threads.contexts thread (some entry.start) } := by
  have spec := rtHwStackInit_spec stkAlign entry room (layout.fits thread)
  obtain ⟨saved, place⟩ := spec cpu.memory
  have same (other : Thread) (ne : thread ≠ other) : SameWords cpu.memory
      (rtHwStackInit cpu.memory entry (layout.top thread - 1)).1
      (layout.top other - layout.size other) (layout.top other) := by
    have fits := layout.fits thread
    refine layout.same ne ?_ ?_
    · omega
    · simp
      omega
  refine { represents with
    created := fun other current => ?_, roomy := fun other own has => ?_,
    waiting := fun other own has waits => ?_, running := fun other runs => ?_ }
  · change Function.update threads.contexts thread _ other ≠ none
    rw [Function.update_apply]
    split
    · exact Option.some_ne_none _
    · exact represents.created other current
  · change Function.update threads.contexts thread _ other = _ at has
    rw [Function.update_apply] at has
    split at has
    · rename_i equal
      obtain rfl := Option.some_inj.mp has
      exact ⟨entry.start_free, by rw [equal]; exact room⟩
    · exact represents.roomy other own has
  · change Function.update threads.contexts thread _ other = _ at has
    change SavedAt _ _ (Function.update cpu.sp thread _ other) _ _ _
    rw [Function.update_apply] at has ⊢
    split at has
    · rename_i equal
      subst equal
      obtain rfl := Option.some_inj.mp has
      rwa [if_pos rfl]
    · rename_i ne
      rw [if_neg ne]
      exact (represents.waiting other own has waits).same (same other (Ne.symm ne))
  · obtain ⟨own, has, live, entered⟩ := represents.running other runs
    have ne : thread ≠ other := by
      rintro rfl
      exact apart runs
    have room' := represents.roomy other own has
    refine ⟨own, ?_, fun mode => (live mode).same room' (layout.fits other) (same other ne),
      fun mode => (entered mode).same (same other ne)⟩
    change Function.update threads.contexts thread _ other = _
    rw [Function.update_of_ne ne.symm, has]

omit [DecidableEq Thread] in
theorem represents_begin {toThread : Thread} (represents : Represents stkAlign layout cpu threads)
    (main : threads.mode = .main) (created : threads.contexts toThread ≠ none) :
    Represents stkAlign layout { cpu.rtHwContextSwitchTo toThread with mode := .handler }
      { threads with
        mode := .handler, pendSvSet := true, primask := false, current := some toThread } := by
  have none_ : threads.running = none := by
    have quiet : cpu.switchInterruptFlag = false := by
      rw [← Bool.not_eq_true]
      exact fun asked => (represents.asked asked).2.2 main
    rw [represents.quiet quiet, represents.started.mpr main]
  exact { represents with
    mode := rfl, primask := rfl, pendSvSet := rfl, current := rfl
    created := fun thread same => by
      obtain rfl := Option.some_inj.mp same
      exact created
    asked := fun _ => ⟨none_.symm, .inl rfl, nofun⟩
    quiet := nofun
    started := by simp
    running := fun thread runs => by
      rw [none_] at runs
      cases runs
    idle := nofun }

omit [DecidableEq Thread] in
theorem represents_switch {fromThread toThread : Thread}
    (represents : Represents stkAlign layout cpu threads) (started : threads.mode ≠ .main)
    (leaves : threads.current = some fromThread) (created : threads.contexts toThread ≠ none) :
    Represents stkAlign layout (cpu.rtHwContextSwitch fromThread toThread)
      { threads with pendSvSet := true, current := some toThread } := by
  have created' (thread : Thread) (same : some toThread = some thread) :
      threads.contexts thread ≠ none := by
    obtain rfl := Option.some_inj.mp same
    exact created
  have started' : some toThread = none ↔ threads.mode = .main :=
    iff_of_false (Option.some_ne_none _) started
  rw [Cpu.rtHwContextSwitch]
  cases asked : cpu.switchInterruptFlag with
  | false =>
      rw [if_neg Bool.false_ne_true]
      have same : threads.running = some fromThread := (represents.quiet asked).trans leaves
      exact { represents with
        pendSvSet := rfl, current := rfl, created := created', started := started'
        asked := fun _ => ⟨same.symm, .inl rfl, started⟩
        quiet := nofun }
  | true =>
      rw [if_pos rfl]
      exact { represents with
        pendSvSet := rfl, current := rfl, created := created', started := started'
        asked := fun _ => ⟨(represents.asked asked).1, .inl rfl, started⟩
        quiet := fun quiet => by
          change cpu.switchInterruptFlag = false at quiet
          rw [asked] at quiet
          cases quiet }

omit [DecidableEq Thread] in
theorem represents_enter {memory' : Nat → BitVec 32}
    (represents : Represents stkAlign layout cpu threads) (mode : threads.mode = .thread)
    (pushed : pushFrame stkAlign cpu.memory cpu.psp cpu.context = (memory', frame)) :
    Represents stkAlign layout { cpu with memory := memory', psp := frame, mode := .handler }
      { threads with mode := .handler } := by
  obtain ⟨thread, runs⟩ := Option.ne_none_iff_exists'.mp (represents.idle mode)
  obtain ⟨own, has, live, -⟩ := represents.running thread runs
  obtain ⟨context, saved, psp, stack⟩ := live mode
  obtain ⟨free, room⟩ := represents.roomy thread own has
  have fits := layout.fits thread
  have spec := pushFrame_spec stkAlign (by omega) (by omega) free stack
  obtain ⟨stored, place, pushed', framed, lower, same⟩ := spec
  rw [← psp, ← context, pushed] at pushed'
  obtain ⟨rfl, rfl⟩ := Prod.mk.inj pushed'
  refine { represents with
    mode := rfl
    asked := fun asked => ⟨(represents.asked asked).1, ?_, nofun⟩
    started := ?_, waiting := fun other own' has' waits => ?_,
    running := fun other runs' => ?_, idle := nofun }
  · exact .inl ((represents.asked asked).2.1.resolve_right (by rw [mode]; nofun))
  · rw [represents.started, mode]
    simp
  · have ne : thread ≠ other := by
      rintro rfl
      exact waits runs
    have apart := layout.apart thread other ne
    exact (represents.waiting other own' has' waits).same (same _ _ (by omega))
  · obtain rfl := Option.some_inj.mp (runs.symm.trans runs')
    refine ⟨own, has, nofun, fun _ => ⟨saved, framed, ?_⟩⟩
    change layout.top thread - layout.size thread + 8 ≤ frame
    omega

theorem represents_run {popped : Nat} {pushed : List (BitVec 32)}
    (represents : Represents stkAlign layout cpu threads) (mode : threads.mode = .thread)
    (runs : threads.running = some thread) (has : threads.contexts thread = some own)
    (free : context.psr.getLsbD 9 = false) (within : popped ≤ own.stack.length)
    (room : pushed.length + (own.stack.length - popped) + 17 ≤ layout.size thread) :
    Represents stkAlign layout
      { cpu with
        context, saved, psp := cpu.psp + popped - pushed.length
        memory := storeWords cpu.memory (cpu.psp + popped - pushed.length) pushed }
      { threads with
        contexts := Function.update threads.contexts thread
          (some ⟨context, saved, pushed ++ own.stack.drop popped⟩) } := by
  obtain ⟨own', has', live, -⟩ := represents.running thread runs
  obtain rfl := Option.some_inj.mp (has.symm.trans has')
  obtain ⟨-, -, psp, stack⟩ := live mode
  have room' := (represents.roomy thread own has).room
  have fits := layout.fits thread
  have length : (pushed ++ own.stack.drop popped).length =
      pushed.length + (own.stack.length - popped) := by
    rw [List.length_append, List.length_drop]
  have place : cpu.psp + popped - pushed.length =
      layout.top thread - (pushed ++ own.stack.drop popped).length := by omega
  have same (other : Thread) (ne : thread ≠ other) : SameWords cpu.memory
      (storeWords cpu.memory (cpu.psp + popped - pushed.length) pushed)
      (layout.top other - layout.size other) (layout.top other) :=
    layout.same ne (by omega) (by omega)
  rw [← psp] at stack
  obtain ⟨-, rest⟩ := loadWords_split within stack
  refine { represents with
    created := fun other current => ?_, roomy := fun other own' has' => ?_,
    waiting := fun other own' has' waits => ?_, running := fun other runs' => ?_ }
  · change Function.update threads.contexts thread _ other ≠ none
    rw [Function.update_apply]
    split
    · exact Option.some_ne_none _
    · exact represents.created other current
  · change Function.update threads.contexts thread _ other = _ at has'
    rw [Function.update_apply] at has'
    split at has'
    · rename_i equal
      obtain rfl := Option.some_inj.mp has'
      rw [← equal] at room
      exact ⟨free, by rw [length]; exact room⟩
    · exact represents.roomy other own' has'
  · have ne : thread ≠ other := by
      rintro rfl
      exact waits runs
    change Function.update threads.contexts thread _ other = _ at has'
    rw [Function.update_of_ne ne.symm] at has'
    exact (represents.waiting other own' has' waits).same (same other ne)
  · obtain rfl := Option.some_inj.mp (runs.symm.trans runs')
    refine ⟨_, Function.update_self _ _ _, fun _ => ⟨rfl, rfl, place, ?_⟩, fun other => ?_⟩
    · change loadWords (storeWords _ _ _) _ _ = _
      rw [← place, length, loadWords_add, loadWords_storeWords]
      have next : cpu.psp + popped - pushed.length + pushed.length = cpu.psp + popped := by omega
      rw [next, ← loadWords_same (storeWords_same (.inr (by omega))), rest]
    · exact absurd mode other

omit [DecidableEq Thread] in
theorem represents_leave (represents : Represents stkAlign layout cpu threads)
    (mode : threads.mode = .handler) (last : threads.pendSvSet = false) :
    Represents stkAlign layout
      { cpu with
        context := (popFrame stkAlign cpu.memory cpu.psp).1
        psp := (popFrame stkAlign cpu.memory cpu.psp).2
        mode := .thread }
      { threads with mode := .thread } := by
  have quiet : cpu.switchInterruptFlag = false := by
    rw [← Bool.not_eq_true]
    intro asked
    rcases (represents.asked asked).2.1 with pending | inside
    · rw [last] at pending
      cases pending
    · rw [mode] at inside
      cases inside
  have started : threads.current ≠ none := by
    rw [Ne, represents.started, mode]
    nofun
  have same := represents.quiet quiet
  refine { represents with
    mode := rfl
    asked := fun asked => by
      change cpu.switchInterruptFlag = true at asked
      rw [quiet] at asked
      cases asked
    started := iff_of_false started nofun
    running := fun thread runs => ?_
    idle := fun _ => by
      change threads.running ≠ none
      rwa [same] }
  obtain ⟨own, has, -, entered⟩ := represents.running thread runs
  obtain ⟨saved, framed, -⟩ := entered (by rw [mode]; nofun)
  refine ⟨own, has, fun _ => ⟨?_, saved, ?_, framed.stack⟩, fun other => absurd rfl other⟩
  · change (popFrame stkAlign _ _).1 = _
    rw [framed.pops]
  · change (popFrame stkAlign _ _).2 = _
    rw [framed.pops]

/-- Afterwards the `sp` of every thread leads to its registers. -/
theorem saveFromThread_spec (represents : Represents stkAlign layout cpu threads)
    (mode : threads.mode ≠ .thread) (asked : cpu.interruptFromThread = threads.running) :
    ∃ memory sp, { cpu with switchInterruptFlag := false }.saveFromThread =
        { cpu with switchInterruptFlag := false, memory, sp } ∧
      ∀ thread own, threads.contexts thread = some own →
        SavedAt stkAlign memory (sp thread) (layout.top thread) (layout.size thread) own := by
  cases runs : threads.running with
  | none =>
      rw [runs] at asked
      refine ⟨cpu.memory, cpu.sp, by rw [Cpu.saveFromThread, asked], fun thread own has => ?_⟩
      exact represents.waiting thread own has (by rw [runs]; nofun)
  | some thread =>
      rw [runs] at asked
      obtain ⟨own, has, -, entered⟩ := represents.running thread runs
      obtain ⟨saved, framed, within⟩ := entered mode
      have below := framed.below
      refine ⟨storeWords cpu.memory (cpu.psp - 8) cpu.saved.words,
        Function.update cpu.sp thread (cpu.psp - 8), by rw [Cpu.saveFromThread, asked], ?_⟩
      intro other own' has'
      by_cases same : other = thread
      · subst same
        obtain rfl := Option.some_inj.mp (has.symm.trans has')
        rw [Function.update_self]
        have place : cpu.psp - 8 + 8 = cpu.psp := by omega
        refine ⟨CalleeSaved.load_storeWords.trans saved, ?_, by omega⟩
        rw [place]
        exact framed.same (storeWords_same (.inr (by simp; omega)))
      · rw [Function.update_of_ne same]
        refine (represents.waiting other own' has' ?_).same (layout.same (Ne.symm same) ?_ ?_)
        · rw [runs]
          exact fun equal => same (Option.some_inj.mp equal).symm
        · omega
        · simp
          omega

/-- PendSV stores the registers of the thread that it leaves, and loads those of the other. -/
theorem represents_serve (represents : Represents stkAlign layout cpu threads)
    (mode : threads.mode = .pendSv) :
    ∃ cpu', cpu.pendSvHandler = some cpu' ∧
      Represents stkAlign layout { cpu' with mode := .handler }
        { threads with mode := .handler, running := threads.current } := by
  have started : threads.current ≠ none := by
    rw [Ne, represents.started, mode]
    nofun
  have started' : threads.current = none ↔ CpuMode.handler = .main := iff_of_false started nofun
  obtain ⟨next, current⟩ := Option.ne_none_iff_exists'.mp started
  obtain ⟨new, created⟩ := Option.ne_none_iff_exists'.mp (represents.created next current)
  rw [Cpu.pendSvHandler]
  cases asked : cpu.switchInterruptFlag with
  | false =>
      have same := represents.quiet asked
      have whole : { threads with mode := .handler, running := threads.current } =
          { threads with mode := .handler } := by rw [← same]
      refine ⟨cpu, if_neg Bool.false_ne_true, ?_⟩
      rw [whole]
      exact { represents with
        mode := rfl
        started := started'
        asked := fun asked' => by
          change cpu.switchInterruptFlag = true at asked'
          rw [asked] at asked'
          cases asked'
        running := fun thread runs => by
          obtain ⟨own, has, -, entered⟩ := represents.running thread runs
          exact ⟨own, has, nofun, fun _ => entered (by rw [mode]; nofun)⟩
        idle := nofun }
  | true =>
      obtain ⟨memory, sp, saves, all⟩ :=
        saveFromThread_spec represents (by rw [mode]; nofun) (represents.asked asked).1
      have target : cpu.interruptToThread = some next := represents.current.trans current
      obtain ⟨loaded, framed, within⟩ := all next new created
      refine ⟨{ cpu with
        switchInterruptFlag := false, memory, sp, saved := CalleeSaved.load memory (sp next)
        psp := sp next + 8 }, ?_, ?_⟩
      · rw [if_pos rfl, saves]
        simp only [target, Option.map_some]
      · exact { represents with
          mode := rfl
          started := started'
          asked := nofun
          quiet := fun _ => rfl
          waiting := fun thread own has _ => all thread own has
          running := fun thread runs => by
            obtain rfl := Option.some_inj.mp (current.symm.trans runs)
            refine ⟨new, created, nofun, fun _ => ⟨loaded, framed, ?_⟩⟩
            change layout.top next - layout.size next + 8 ≤ sp next + 8
            omega
          idle := nofun }

/-- A step of the threads is one of the processor, which shows the same. -/
theorem Represents.step {action : CpuAction Thread} {sees : List ThreadSees}
    (represents : Represents stkAlign layout cpu threads) (obeys : threads.Obeys layout action)
    (transition : threadsMachine.step threads action = some (threads', sees)) :
    ∃ cpu', (cpuMachine stkAlign layout).step cpu action = some (cpu', sees) ∧
      Represents stkAlign layout cpu' threads' := by
  have mode := represents.mode
  cases action with
  | create thread entry =>
      obtain ⟨allowed, same⟩ := Option.ite_none_right_eq_some.mp transition
      obtain ⟨rfl, rfl⟩ := Prod.mk.inj (Option.some_inj.mp same)
      rw [← mode] at allowed
      exact ⟨_, if_pos allowed, represents_create represents obeys.1 obeys.2⟩
  | begin toThread =>
      obtain ⟨main, same⟩ := Option.ite_none_right_eq_some.mp transition
      obtain ⟨rfl, rfl⟩ := Prod.mk.inj (Option.some_inj.mp same)
      exact ⟨_, if_pos (mode.trans main), represents_begin represents main obeys⟩
  | run popped pushed context saved =>
      obtain ⟨free, keeps⟩ := obeys
      simp only [threadsMachine] at transition
      split at transition
      · rename_i thread inside runs
        obtain ⟨own, has, same⟩ := Option.map_eq_some_iff.mp transition
        obtain ⟨rfl, rfl⟩ := Prod.mk.inj same
        obtain ⟨within, room⟩ := keeps thread runs own has
        refine ⟨_, ?_, represents_run represents inside runs has free within room⟩
        obtain ⟨own', has', live, -⟩ := represents.running thread runs
        obtain rfl := Option.some_inj.mp (has.symm.trans has')
        obtain ⟨seen, kept, psp, stack⟩ := live inside
        rw [← psp] at stack
        have shown : loadWords cpu.memory cpu.psp popped = own.stack.take popped :=
          (loadWords_split within stack).1
        refine (if_pos (mode.trans inside)).trans ?_
        rw [seen, kept, shown]
      · cases transition
  | mask primask =>
      obtain ⟨inside, same⟩ := Option.ite_none_right_eq_some.mp transition
      obtain ⟨rfl, rfl⟩ := Prod.mk.inj (Option.some_inj.mp same)
      exact ⟨_, if_pos (mode.trans inside), { represents with primask := rfl }⟩
  | switch fromThread toThread =>
      obtain ⟨started, same⟩ := Option.ite_none_left_eq_some.mp transition
      obtain ⟨rfl, rfl⟩ := Prod.mk.inj (Option.some_inj.mp same)
      refine ⟨_, if_neg ?_, represents_switch represents started obeys.1 obeys.2⟩
      rwa [mode]
  | enter =>
      obtain ⟨⟨inside, open_⟩, same⟩ := Option.ite_none_right_eq_some.mp transition
      obtain ⟨rfl, rfl⟩ := Prod.mk.inj (Option.some_inj.mp same)
      exact ⟨_, if_pos ⟨mode.trans inside, represents.primask.trans open_⟩,
        represents_enter represents inside rfl⟩
  | handle context =>
      obtain ⟨inside, same⟩ := Option.ite_none_right_eq_some.mp transition
      obtain ⟨rfl, rfl⟩ := Prod.mk.inj (Option.some_inj.mp same)
      have handles : threads.mode ≠ .thread := by
        rcases inside with inside | inside <;> rw [inside] <;> nofun
      refine ⟨_, if_pos (by rwa [mode]), { represents with running := fun thread runs => ?_ }⟩
      obtain ⟨own, has, -, entered⟩ := represents.running thread runs
      exact ⟨own, has, fun inside => absurd inside handles, entered⟩
  | pendSv =>
      obtain ⟨⟨inside, pending⟩, same⟩ := Option.ite_none_right_eq_some.mp transition
      obtain ⟨rfl, rfl⟩ := Prod.mk.inj (Option.some_inj.mp same)
      have started : threads.current ≠ none := by
        rw [Ne, represents.started, inside]
        nofun
      refine ⟨_, if_pos ⟨mode.trans inside, represents.pendSvSet.trans pending⟩,
        { represents with
          mode := rfl
          pendSvSet := rfl
          asked := fun asked => ⟨(represents.asked asked).1, .inr rfl, nofun⟩
          started := iff_of_false started nofun
          running := fun thread runs => ?_
          idle := nofun }⟩
      obtain ⟨own, has, -, entered⟩ := represents.running thread runs
      exact ⟨own, has, nofun, fun _ => entered (by rw [inside]; nofun)⟩
  | serve =>
      obtain ⟨inside, same⟩ := Option.ite_none_right_eq_some.mp transition
      obtain ⟨rfl, rfl⟩ := Prod.mk.inj (Option.some_inj.mp same)
      obtain ⟨cpu', served, represents'⟩ := represents_serve represents inside
      refine ⟨_, (if_pos (mode.trans inside)).trans ?_, represents'⟩
      rw [served]
      rfl
  | leave =>
      obtain ⟨⟨inside, last⟩, same⟩ := Option.ite_none_right_eq_some.mp transition
      obtain ⟨rfl, rfl⟩ := Prod.mk.inj (Option.some_inj.mp same)
      exact ⟨_, if_pos ⟨mode.trans inside, represents.pendSvSet.trans last⟩,
        represents_leave represents inside last⟩

/-! ## Runs -/

omit [DecidableEq Thread] in
theorem represents_boot (boots : cpu.Boots) : Represents stkAlign layout cpu cpu.unshared where
  mode := rfl
  primask := rfl
  pendSvSet := rfl
  current := boots.interruptToThread
  created := fun _ current => by cases current
  asked := fun asked => by
    rw [boots.switchInterruptFlag] at asked
    cases asked
  quiet := fun _ => rfl
  started := iff_of_true rfl boots.mode
  roomy := fun _ _ has => by cases has
  waiting := fun _ _ has => by cases has
  running := fun _ runs => by cases runs
  idle := fun mode => by
    change cpu.mode = .thread at mode
    rw [boots.mode] at mode
    cases mode

omit [DecidableEq Thread] in
/-- While no switch is under way, the thread that runs is the one the kernel believes in. -/
theorem Represents.settled (represents : Represents stkAlign layout cpu threads)
    (mode : threads.mode = .thread) (last : threads.pendSvSet = false) :
    threads.running = threads.current := by
  apply represents.quiet
  rw [← Bool.not_eq_true]
  intro asked
  rcases (represents.asked asked).2.1 with pending | inside
  · rw [last] at pending
    cases pending
  · rw [mode] at inside
    cases inside

/-- In every run each thread sees what it would see on a processor of its own, and it is the one
that was last asked for. -/
theorem threads_undisturbed {actions : List (CpuAction Thread)} {sees : List ThreadSees}
    (boots : cpu.Boots)
    (run : threadsMachine.Run (Threads.Obeys layout) cpu.unshared actions sees threads) :
    ∃ cpu', (cpuMachine stkAlign layout).Run (fun _ _ => True) cpu actions sees cpu' ∧
      cpu'.mode = threads.mode ∧
      (threads.mode = .thread → cpu'.pendSvSet = false → threads.running = threads.current) := by
  have simulated : ∃ cpu', (cpuMachine stkAlign layout).Run (fun _ _ => True) cpu
      (actions.map id) sees cpu' ∧ Represents stkAlign layout cpu' threads :=
    run.simulated (fun threads cpu => Represents stkAlign layout cpu threads) id
      (represents_boot boots) fun threads action threads' sees cpu represents obeys transition => by
        obtain ⟨cpu', transition', represents'⟩ := represents.step obeys transition
        exact ⟨cpu', trivial, transition', represents'⟩
  obtain ⟨cpu', run', represents⟩ := simulated
  rw [List.map_id] at run'
  refine ⟨cpu', run', represents.mode, fun mode last => ?_⟩
  exact represents.settled mode (represents.pendSvSet.symm.trans last)

/-! Two threads, the first of which is interrupted and left with a word on its stack. -/

def pairLayout : StackLayout Bool where
  top thread := if thread then 64 else 128
  size _ := 64
  fits := by decide
  apart := by decide

def resetCpu : Cpu Bool where
  mode := .main
  context := ⟨0, 0, 0, 0, 0, 0, 0, 0⟩
  saved := ⟨0, 0, 0, 0, 0, 0, 0, 0⟩
  psp := 0
  primask := true
  pendSvSet := false
  memory _ := 0
  switchInterruptFlag := false
  interruptFromThread := none
  interruptToThread := none
  sp _ := 0

def pairEntry (thread : Bool) : ThreadEntry := ⟨if thread then 0x200 else 0x100, 7, 0x300⟩

def pairContext : StackContext := ⟨1, 2, 3, 4, 5, 6, 0x104, 0x21000000⟩

def pairSaved : CalleeSaved := ⟨8, 9, 10, 11, 12, 13, 14, 15⟩

def pairActions : List (CpuAction Bool) :=
  [.create false (pairEntry false), .create true (pairEntry true), .begin false, .pendSv, .serve,
    .leave, .run 0 [42] pairContext pairSaved, .enter, .switch false true, .pendSv, .serve, .leave,
    .run 0 [] (pairEntry true).context ⟨0, 0, 0, 0, 0, 0, 0, 0⟩, .switch true false, .enter, .pendSv,
    .serve, .leave, .run 1 [] pairContext pairSaved]

def pairSees : List ThreadSees :=
  [⟨(pairEntry false).context, ⟨0, 0, 0, 0, 0, 0, 0, 0⟩, []⟩,
    ⟨(pairEntry true).context, ⟨0, 0, 0, 0, 0, 0, 0, 0⟩, []⟩, ⟨pairContext, pairSaved, [42]⟩]

theorem threads_undisturbed_pair : ∃ threads cpu,
    threadsMachine.Run (Threads.Obeys pairLayout) resetCpu.unshared pairActions pairSees threads ∧
      threads.running = some false ∧
      (cpuMachine true pairLayout).Run (fun _ _ => True) resetCpu pairActions pairSees cpu := by
  obtain ⟨threads, success, runs⟩ : ∃ threads,
      (threadsMachine.restrict (Threads.Obeys pairLayout)).execute resetCpu.unshared pairActions =
        some (threads, pairSees) ∧ threads.running = some false := ⟨_, rfl, rfl⟩
  have run := Machine.run_of_execute_restrict success
  have undisturbed : ∃ cpu, (cpuMachine true pairLayout).Run (fun _ _ => True) resetCpu pairActions
      pairSees cpu ∧ cpu.mode = threads.mode ∧
        (threads.mode = .thread → cpu.pendSvSet = false → threads.running = threads.current) :=
    threads_undisturbed ⟨rfl, rfl, rfl⟩ run
  obtain ⟨cpu, run', -⟩ := undisturbed
  exact ⟨threads, cpu, run, runs, run'⟩

end RtThread
