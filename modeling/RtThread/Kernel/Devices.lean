import RtThread.Kernel.State

/-!
# The device registry

Devices are objects in a list, found by name. The field for the name has
`RT_NAME_MAX` bytes and need not have a terminator.
-/

namespace RtThread

/-- `RT_NAME_MAX` of `rtconfig.h`. -/
def rtNameMax : Nat := 6

/-- `rt_strncpy`, with the bytes from `dst` and from `src` on. -/
def rtStrncpy (dst src : Nat → BitVec 8) : Nat → Nat → BitVec 8
  | 0 => dst
  | n + 1 =>
      if src 0 = 0 then fun place => if place < n + 1 then 0 else dst place
      else fun place =>
        match place with
        | 0 => src 0
        | place + 1 =>
            rtStrncpy (fun place => dst (place + 1)) (fun place => src (place + 1)) n place

/-- `rt_strncmp`; the difference of two characters is a `signed char`. -/
def rtStrncmp (cs ct : Nat → BitVec 8) : Nat → BitVec 8
  | 0 => 0
  | count + 1 =>
      let res := cs 0 - ct 0
      if res ≠ 0 ∨ cs 0 = 0 then res
      else rtStrncmp (fun place => cs (place + 1)) (fun place => ct (place + 1)) count

/-- A string without its terminator. -/
structure CString where
  bytes : List (BitVec 8)
  noNul : 0 ∉ bytes
deriving DecidableEq

/-- The memory behind a pointer to the string; only its bytes and the terminator are
ever read. -/
def CString.memory (string : CString) : Nat → BitVec 8 := fun place => string.bytes.getD place 0

/-- The address of a `struct rt_device`. -/
abbrev DeviceId := Nat

/-- The fields of `struct rt_device` that registration sets. -/
structure DeviceRecord where
  name : Nat → BitVec 8
  type : BitVec 8
  flag : BitVec 16

/-- `rt_object_container[RT_Object_Class_Device]` with the devices. -/
structure DeviceTable where
  objectList : List DeviceId
  record : DeviceId → DeviceRecord

/-- `RT_Object_Class_Device`. -/
def rtObjectClassDevice : BitVec 8 := 8

/-- `RT_Object_Class_Static`. -/
def rtObjectClassStatic : BitVec 8 := 0x80

namespace DeviceTable

/-- `rt_object_init` for a device. -/
def rtObjectInit (table : DeviceTable) (object : DeviceId) (name : Nat → BitVec 8) :
    DeviceTable where
  objectList := object :: table.objectList
  record := Function.update table.record object
    { table.record object with
      type := rtObjectClassDevice ||| rtObjectClassStatic
      name := rtStrncpy (table.record object).name name rtNameMax }

/-- `rt_device_find`. -/
def rtDeviceFind (table : DeviceTable) (name : Nat → BitVec 8) : Option DeviceId :=
  table.objectList.find? fun object => rtStrncmp (table.record object).name name rtNameMax = 0

/-- `rt_device_register`; `none` is `RT_NULL`. -/
def rtDeviceRegister (table : DeviceTable) (dev : Option DeviceId) (name : Nat → BitVec 8)
    (flags : BitVec 16) : DeviceTable × Err :=
  match dev with
  | none => (table, .error)
  | some dev =>
      if (table.rtDeviceFind name).isSome then (table, .error)
      else
        let table := table.rtObjectInit dev name
        let record := { table.record dev with flag := flags }
        ({ table with record := Function.update table.record dev record }, .eok)

end DeviceTable

/-- A call of `rt_device_register`. -/
structure Registration where
  dev : DeviceId
  name : CString
  flags : BitVec 16

/-- Some registrations, one after the other, with what they return. -/
def DeviceTable.registerAll (table : DeviceTable) : List Registration → DeviceTable × List Err
  | [] => (table, [])
  | registration :: rest =>
      let (table, result) :=
        table.rtDeviceRegister (some registration.dev) registration.name.memory registration.flags
      let (table, results) := table.registerAll rest
      (table, result :: results)

end RtThread
