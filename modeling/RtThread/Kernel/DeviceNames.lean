import RtThread.Kernel.Devices

/-!
# Names of devices

A name is stored and compared up to `RT_NAME_MAX` bytes, so devices are addressable
by their names just when all the names are shorter.
-/

namespace RtThread

/-! ## Copies and comparisons -/

section

variable {dst src cs ct : Nat → BitVec 8}

/-- A string in memory: after a NUL there are only NULs. -/
def Terminated (memory : Nat → BitVec 8) : Prop :=
  ∀ place, memory place = 0 → ∀ later, place ≤ later → memory later = 0

theorem Terminated.tail (terminated : Terminated src) :
    Terminated fun place => src (place + 1) := by
  intro place nul later order
  exact terminated (place + 1) nul (later + 1) (by omega)

/-- The copy has the bytes of the string, padded with NULs. -/
theorem rtStrncpy_apply (terminated : Terminated src) (n place : Nat) (bound : place < n) :
    rtStrncpy dst src n place = src place := by
  induction n generalizing dst src place with
  | zero => omega
  | succ n ih =>
      unfold rtStrncpy
      split
      · rename_i nul
        dsimp only
        rw [if_pos bound]
        exact (terminated 0 nul place (Nat.zero_le _)).symm
      · cases place with
        | zero => rfl
        | succ place => exact ih terminated.tail place (by omega)

theorem sub_eq_zero_iff (first second : BitVec 8) : first - second = 0 ↔ first = second := by
  constructor
  · intro none_
    bv_omega
  · rintro rfl
    simp

/-- The comparison of a copy with a string looks at the first `count` bytes of both. -/
theorem rtStrncmp_eq_zero (count : Nat) (copied : ∀ place < count, cs place = src place)
    (terminated : Terminated src) (terminated' : Terminated ct) :
    rtStrncmp cs ct count = 0 ↔ ∀ place < count, src place = ct place := by
  induction count generalizing cs src ct with
  | zero => simp [rtStrncmp]
  | succ count ih =>
      have first := copied 0 (Nat.succ_pos count)
      unfold rtStrncmp
      dsimp only
      split
      · rename_i ends
        rw [first] at ends ⊢
        constructor
        · intro res place _
          have nul := ends.resolve_left (not_not.mpr res)
          have nul' : ct 0 = 0 := by
            rw [← (sub_eq_zero_iff ..).mp res]
            exact nul
          rw [terminated 0 nul place (Nat.zero_le _), terminated' 0 nul' place (Nat.zero_le _)]
        · intro same
          exact (sub_eq_zero_iff ..).mpr (same 0 (Nat.succ_pos count))
      · rename_i goes
        obtain ⟨res, -⟩ := not_or.mp goes
        have same : src 0 = ct 0 := by
          rw [← first]
          exact (sub_eq_zero_iff ..).mp (not_not.mp res)
        rw [ih (fun place bound => copied (place + 1) (by omega)) terminated.tail terminated'.tail]
        constructor
        · rintro rest (_ | place) bound
          · exact same
          · exact rest place (by omega)
        · intro all place bound
          exact all (place + 1) (by omega)

end

/-! ## Names -/

namespace CString

theorem terminated (string : CString) : Terminated string.memory := by
  intro place nul later order
  have beyond : string.bytes.length ≤ place := by
    by_contra inside
    rw [memory, List.getD_eq_getElem _ _ (by omega)] at nul
    exact string.noNul (nul ▸ List.getElem_mem _)
  exact List.getD_eq_default _ _ (by omega)

/-- The bytes are those before the first NUL. -/
theorem getElem?_bytes (string : CString) (place : Nat) :
    string.bytes[place]? =
      if string.memory place = 0 then none else some (string.memory place) := by
  rw [memory, List.getD_eq_getElem?_getD]
  cases there : string.bytes[place]? with
  | none => simp
  | some byte =>
      have some_ : byte ≠ 0 := by
        rintro rfl
        exact string.noNul (List.mem_of_getElem? there)
      rw [Option.getD_some, if_neg some_]

theorem memory_eq_iff (string other : CString) (count : Nat) :
    (∀ place < count, string.memory place = other.memory place) ↔
      string.bytes.take count = other.bytes.take count := by
  constructor
  · intro same
    apply List.ext_getElem?
    intro place
    rw [List.getElem?_take, List.getElem?_take]
    split
    · rename_i bound
      rw [getElem?_bytes, getElem?_bytes, same place bound]
    · rfl
  · intro same place bound
    have there := congrArg (·[place]?) same
    rw [List.getElem?_take_of_lt bound, List.getElem?_take_of_lt bound] at there
    rw [memory, memory, List.getD_eq_getElem?_getD, List.getD_eq_getElem?_getD, there]

/-- What the registry keeps of a name. -/
def key (string : CString) : List (BitVec 8) := string.bytes.take rtNameMax

theorem key_of_short {string : CString} (short : string.bytes.length < rtNameMax) :
    string.key = string.bytes := List.take_of_length_le short.le

/-- Names that are short are told apart by what is kept of them. -/
theorem key_injective {string other : CString} (short : string.bytes.length < rtNameMax)
    (same : string.key = other.key) : string = other := by
  have lengths := congrArg List.length same
  rw [key, key, List.length_take, List.length_take] at lengths
  have short' : other.bytes.length < rtNameMax := by omega
  rw [key_of_short short, key_of_short short'] at same
  cases string
  cases other
  cases same
  rfl

end CString

/-! ## The registry -/

/-- The devices of the list are registered under these names. -/
structure DeviceTable.Holds (table : DeviceTable) (entries : List (DeviceId × CString)) :
    Prop where
  list : table.objectList = entries.map Prod.fst
  names : ∀ entry ∈ entries, ∀ place < rtNameMax,
    (table.record entry.1).name place = entry.2.memory place

namespace DeviceTable

variable {table next : DeviceTable} {entries : List (DeviceId × CString)} {name : CString}
  {dev : DeviceId} {flags : BitVec 16} {registrations : List Registration} {results : List Err}

/-- The first device with the same key is found. -/
theorem Holds.find (holds : table.Holds entries) (name : CString) :
    table.rtDeviceFind name.memory =
      (entries.find? fun entry => entry.2.key = name.key).map Prod.fst := by
  rw [rtDeviceFind, holds.list, List.find?_map]
  congr 1
  refine List.find?_congr fun entry member => ?_
  have compared := rtStrncmp_eq_zero rtNameMax (holds.names entry member) entry.2.terminated
    name.terminated
  rw [CString.memory_eq_iff] at compared
  exact decide_eq_decide.mpr compared

theorem Holds.register (holds : table.Holds entries) (fresh : dev ∉ entries.map Prod.fst)
    (absent : table.rtDeviceFind name.memory = none) :
    ∃ next, table.rtDeviceRegister (some dev) name.memory flags = (next, .eok) ∧
      next.Holds ((dev, name) :: entries) := by
  refine ⟨_, by rw [rtDeviceRegister, absent]; rfl, ?_, ?_⟩
  · exact congrArg (dev :: ·) holds.list
  · rintro entry member place bound
    rcases List.mem_cons.mp member with rfl | old
    · simp only [rtObjectInit, Function.update_self]
      exact rtStrncpy_apply name.terminated rtNameMax place bound
    · have apart : entry.1 ≠ dev := by
        rintro rfl
        exact fresh (List.mem_map_of_mem old)
      simp only [rtObjectInit, Function.update_of_ne apart]
      exact holds.names entry old place bound

/-- What a registration adds to the registry. -/
def entry (registration : Registration) : DeviceId × CString :=
  (registration.dev, registration.name)

/-- The first registration, when no device of its name is found. -/
theorem Holds.registerCons {registration : Registration} (holds : table.Holds entries)
    (fresh : registration.dev ∉ entries.map Prod.fst)
    (absent : table.rtDeviceFind registration.name.memory = none) (rest : List Registration) :
    ∃ next : DeviceTable, next.Holds (entry registration :: entries) ∧
      table.registerAll (registration :: rest) =
        ((next.registerAll rest).1, .eok :: (next.registerAll rest).2) := by
  obtain ⟨next, registered, holds'⟩ := holds.register fresh absent
  refine ⟨next, holds', ?_⟩
  rw [DeviceTable.registerAll, registered]

/-- The devices of the other registrations are not the first one. -/
theorem fresh_cons {registration : Registration} {rest : List Registration}
    (distinct : registration.dev ∉ rest.map Registration.dev)
    (fresh : ∀ other ∈ registration :: rest, other.dev ∉ entries.map Prod.fst) :
    ∀ other ∈ rest, other.dev ∉ (entry registration :: entries).map Prod.fst := by
  intro other member there
  rcases List.mem_cons.mp there with same | old
  · exact distinct (List.mem_map.mpr ⟨other, member, same⟩)
  · exact fresh other (List.mem_cons_of_mem _ member) old

/-- After registrations that have been accepted the devices are registered. -/
theorem Holds.registerAll (holds : table.Holds entries) (distinct : (registrations.map
      Registration.dev).Nodup) (fresh : ∀ registration ∈ registrations,
        registration.dev ∉ entries.map Prod.fst)
    (accepted : ∀ result ∈ (table.registerAll registrations).2, result = .eok) :
    (table.registerAll registrations).1.Holds ((registrations.map entry).reverse ++ entries) := by
  induction registrations generalizing table entries with
  | nil => exact holds
  | cons registration rest ih =>
      have distinct' := List.nodup_cons.mp distinct
      have absent : table.rtDeviceFind registration.name.memory = none := by
        cases there : table.rtDeviceFind registration.name.memory with
        | none => rfl
        | some other =>
            have refused := accepted .error
              (by simp [DeviceTable.registerAll, rtDeviceRegister, there])
            cases refused
      obtain ⟨next, holds', all⟩ :=
        holds.registerCons (fresh registration List.mem_cons_self) absent rest
      rw [all] at accepted ⊢
      rw [List.map_cons, List.reverse_cons, List.append_assoc]
      exact ih holds' distinct'.2 (fresh_cons distinct'.1 fresh) fun result member =>
        accepted result (List.mem_cons_of_mem _ member)

/-- Short names that differ are accepted. -/
theorem Holds.accepted (holds : table.Holds entries) (distinct : (registrations.map
      Registration.dev).Nodup) (fresh : ∀ registration ∈ registrations,
        registration.dev ∉ entries.map Prod.fst)
    (names : (registrations.map Registration.name).Nodup)
    (others : ∀ registration ∈ registrations, registration.name ∉ entries.map Prod.snd)
    (short : ∀ registration ∈ registrations, registration.name.bytes.length < rtNameMax) :
    ∀ result ∈ (table.registerAll registrations).2, result = .eok := by
  induction registrations generalizing table entries with
  | nil => simp [DeviceTable.registerAll]
  | cons registration rest ih =>
      have distinct' := List.nodup_cons.mp distinct
      have names' := List.nodup_cons.mp names
      have absent : table.rtDeviceFind registration.name.memory = none := by
        rw [holds.find, Option.map_eq_none_iff, List.find?_eq_none]
        intro entry member same
        have name := CString.key_injective (short registration List.mem_cons_self)
          (of_decide_eq_true same).symm
        exact others registration List.mem_cons_self (name ▸ List.mem_map_of_mem member)
      obtain ⟨next, holds', all⟩ :=
        holds.registerCons (fresh registration List.mem_cons_self) absent rest
      rw [all]
      intro result member
      rcases List.mem_cons.mp member with rfl | later
      · rfl
      refine ih holds' distinct'.2 (fresh_cons distinct'.1 fresh) names'.2 ?_ ?_ result later
      · intro other member there
        rcases List.mem_cons.mp there with same | old
        · exact names'.1 (List.mem_map.mpr ⟨other, member, same⟩)
        · exact others other (List.mem_cons_of_mem _ member) old
      · exact fun other member => short other (List.mem_cons_of_mem _ member)

end DeviceTable

/-! ## Addressable devices -/

/-- All registrations are accepted, and afterwards every device is found under its name
and nothing under another one. -/
structure Addressable (table : DeviceTable) (registrations : List Registration) : Prop where
  accepted : ∀ result ∈ (table.registerAll registrations).2, result = .eok
  found : ∀ registration ∈ registrations,
    (table.registerAll registrations).1.rtDeviceFind registration.name.memory =
      some registration.dev
  absent : ∀ name : CString, (∀ registration ∈ registrations, registration.name ≠ name) →
    (table.registerAll registrations).1.rtDeviceFind name.memory = none

theorem exists_bound (registrations : List Registration) : ∃ bound, ∀ registration ∈ registrations,
    registration.name.bytes.length ≤ bound := by
  induction registrations with
  | nil => exact ⟨0, by simp⟩
  | cons registration rest ih =>
      obtain ⟨bound, upper⟩ := ih
      refine ⟨max registration.name.bytes.length bound, fun other member => ?_⟩
      rcases List.mem_cons.mp member with rfl | later
      · exact Nat.le_max_left ..
      · exact Nat.le_trans (upper other later) (Nat.le_max_right ..)

/-- A longer name with the same key that none of the registrations has. -/
theorem CString.exists_longer (string : CString) (registrations : List Registration)
    (long : rtNameMax ≤ string.bytes.length) : ∃ other : CString, other.key = string.key ∧
      ∀ registration ∈ registrations, registration.name ≠ other := by
  obtain ⟨total, upper⟩ := exists_bound registrations
  have noNul : (0 : BitVec 8) ∉ string.bytes ++ List.replicate (total + 1) 1 := by
    intro nul
    rcases List.mem_append.mp nul with there | there
    · exact string.noNul there
    · exact absurd (List.eq_of_mem_replicate there) (by decide)
  refine ⟨⟨_, noNul⟩, List.take_append_of_le_length long, ?_⟩
  intro registration member same
  have inside := upper registration member
  rw [same, List.length_append, List.length_replicate] at inside
  omega

/-- Devices are addressable by their names if and only if all the names have fewer than
`RT_NAME_MAX` characters. -/
theorem devices_addressable (record : DeviceId → DeviceRecord) (registrations : List Registration)
    (devices : (registrations.map Registration.dev).Nodup)
    (names : (registrations.map Registration.name).Nodup) :
    Addressable ⟨[], record⟩ registrations ↔
      ∀ registration ∈ registrations, registration.name.bytes.length < rtNameMax := by
  have empty : DeviceTable.Holds ⟨[], record⟩ [] := ⟨rfl, by simp⟩
  constructor
  · rintro ⟨accepted, -, absent⟩ registration member
    by_contra long
    have holds := empty.registerAll devices (by simp) accepted
    obtain ⟨other, same, apart⟩ :=
      registration.name.exists_longer registrations (Nat.le_of_not_lt long)
    have none_ := absent other apart
    rw [holds.find, Option.map_eq_none_iff, List.find?_eq_none] at none_
    exact none_ (DeviceTable.entry registration)
      (by simpa using ⟨registration, member, rfl⟩) (decide_eq_true same.symm)
  · intro short
    have accepted := empty.accepted devices (by simp) names (by simp) short
    have holds := empty.registerAll devices (by simp) accepted
    have among : ∀ entry ∈ (registrations.map DeviceTable.entry).reverse ++ [],
        ∃ registration ∈ registrations, entry = DeviceTable.entry registration := by
      intro entry there
      obtain ⟨registration, member, rfl⟩ : ∃ registration ∈ registrations,
          DeviceTable.entry registration = entry := by simpa using there
      exact ⟨registration, member, rfl⟩
    refine ⟨accepted, ?_, ?_⟩
    · intro registration member
      rw [holds.find]
      cases found : ((registrations.map DeviceTable.entry).reverse ++ []).find?
          fun (entry : DeviceId × CString) => entry.2.key = registration.name.key with
      | none =>
          have differs := List.find?_eq_none.mp found (DeviceTable.entry registration)
            (by simpa using ⟨registration, member, rfl⟩)
          exact absurd (decide_eq_true rfl) differs
      | some entry =>
          obtain ⟨other, member', rfl⟩ := among entry (List.mem_of_find?_eq_some found)
          have key : (DeviceTable.entry other).2.key = registration.name.key := by
            simpa using List.find?_some found
          have same := CString.key_injective (short other member') key
          rw [List.inj_on_of_nodup_map names member' member same]
          rfl
    · intro name apart
      rw [holds.find, Option.map_eq_none_iff, List.find?_eq_none]
      intro entry there same
      obtain ⟨registration, member, rfl⟩ := among entry there
      exact apart registration member
        (CString.key_injective (short registration member) (of_decide_eq_true same))

/-- The names "vcom" and "spi", and a lookup of each. -/
theorem devices_addressable_two : Addressable ⟨[], fun _ => ⟨fun _ => 0, 0, 0⟩⟩
    [⟨1, ⟨[0x76, 0x63, 0x6f, 0x6d], by decide⟩, 0⟩, ⟨2, ⟨[0x73, 0x70, 0x69], by decide⟩, 0⟩] :=
  (devices_addressable _ _ (by decide) (by decide)).mpr (by decide)

/-- The names "serial0" and "serial1": the second device is refused. -/
theorem serial_not_addressable : ¬ Addressable ⟨[], fun _ => ⟨fun _ => 0, 0, 0⟩⟩
    [⟨1, ⟨[0x73, 0x65, 0x72, 0x69, 0x61, 0x6c, 0x30], by decide⟩, 0⟩,
      ⟨2, ⟨[0x73, 0x65, 0x72, 0x69, 0x61, 0x6c, 0x31], by decide⟩, 0⟩] := by
  intro addressable
  have refused := addressable.accepted .error (by decide +kernel)
  cases refused

end RtThread
