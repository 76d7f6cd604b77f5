import RtThread.Serial.Ring

/-!
# The serial device

The interrupt-mode paths of `serial.c` and the driver of UART 0 in
`lpc1788_usart0.c`. The hardware is what the driver sees of it: the receive
FIFO behind RBR and the bytes written to THR. The `tx_complete` and
`rx_indicate` callbacks are the application's; here they are only counted.
-/

namespace RtThread.Serial

/-- `FIFO_THRESHOLD`. -/
def fifoThreshold : BitVec 8 := 14

/-- UART 0 as the driver sees it. -/
structure Uart where
  /-- The receive FIFO, oldest byte first. -/
  rbr : List (BitVec 8)
  /-- Every byte written to THR so far, in order. -/
  thr : List (BitVec 8)
  /-- How many bytes of the transmit FIFO are not on the line yet. -/
  txFifo : Nat

/-- `struct rt_serial_device` with the static variables of its driver. -/
structure SerialDevice where
  uart : Uart
  intRx : SerialRingbuffer
  intTx : SerialRingbuffer
  txBusy : Bool
  recvFifoLength : BitVec 8
  sendFifoLength : BitVec 8
  /-- Calls of `tx_complete`. -/
  completions : Nat
  /-- Calls of `rx_indicate`, with the length each is given. -/
  indications : List (BitVec 32)

namespace SerialDevice

/-- The device after `rt_serial_init`, with an idle line. -/
def init : SerialDevice where
  uart := ⟨[], [], 0⟩
  intRx := .init
  intTx := .init
  txBusy := false
  recvFifoLength := 0
  sendFifoLength := 0
  completions := 0
  indications := []

/-- `LPC_UART0->THR = c & UART_THR_MASKBIT`. -/
def writeThr (device : SerialDevice) (c : BitVec 8) : SerialDevice :=
  { device with
    uart := { device.uart with thr := device.uart.thr ++ [c], txFifo := device.uart.txFifo + 1 } }

/-- `put_char`: a byte for which the FIFO has no room is dropped. -/
def putChar (device : SerialDevice) (c : BitVec 8) : Int × SerialDevice :=
  let device :=
    if device.sendFifoLength < 15 then
      { device.writeThr c with sendFifoLength := device.sendFifoLength + 1 }
    else device
  (15 - device.sendFifoLength.toNat, device)

/-- The loop of `serial_put`. -/
def serialPutLoop (device : SerialDevice) (count : Nat) : Option (Nat × SerialDevice) :=
  let (ch, intTx) := device.intTx.getc
  let device := { device with intTx := intTx }
  if ch > 0 then
    let (remain, device) := device.putChar (BitVec.ofInt 8 ch)
    if remain = 0 then some (count + 1, device) else device |>.serialPutLoop (count + 1)
  else if count = 0 then
    some (count, { device with txBusy := false, completions := device.completions + 1 })
  else some (count, device)
partial_fixpoint

def serialPut (device : SerialDevice) : Option (Nat × SerialDevice) := device.serialPutLoop 0

/-- The first loop of `rt_serial_write`: store bytes until the ring is full. -/
def storeBytes (ring : SerialRingbuffer) : List (BitVec 8) → Nat × SerialRingbuffer
  | [] => (0, ring)
  | byte :: bytes =>
    let (result, next) := ring.putchar byte
    if result ≠ -1 then
      let (stored, next) := storeBytes next bytes
      (stored + 1, next)
    else (0, next)

/-- `rt_serial_write` of a device opened with `RT_DEVICE_FLAG_INT_TX`, which
returns the number of bytes it has taken. -/
def rtSerialWrite (device : SerialDevice) (buffer : List (BitVec 8)) :
    Option (Nat × SerialDevice) := do
  let (writeNbytes, intTx) := storeBytes device.intTx buffer
  let device := { device with intTx := intTx }
  if device.txBusy = false then
    let (_, device) ← serialPut { device with txBusy := true }
    pure (writeNbytes, device)
  else pure (writeNbytes, device)

/-- The loop of `getchar`; `result` is what the last read of RBR gave. -/
def getcharLoop (result : Int) (recvFifoLength : BitVec 8) :
    List (BitVec 8) → Int × BitVec 8 × List (BitVec 8)
  | [] => (result, recvFifoLength, [])
  | byte :: rbr =>
    if recvFifoLength > 1 then getcharLoop byte.toNat (recvFifoLength - 1) rbr
    else (-1, recvFifoLength, byte :: rbr)

def getchar (device : SerialDevice) : Int × SerialDevice :=
  let (result, recvFifoLength, rbr) := getcharLoop (-1) device.recvFifoLength device.uart.rbr
  (result,
    { device with recvFifoLength := recvFifoLength, uart := { device.uart with rbr := rbr } })

/-- The loop of the receive interrupts: store what `getc` returns until it returns -1. -/
def receiveLoop (device : SerialDevice) : Option SerialDevice :=
  let (ch, device) := device.getchar
  if ch = -1 then some device
  else { device with intRx := device.intRx.putc (BitVec.ofInt 8 ch) } |>.receiveLoop
partial_fixpoint

/-- `rt_hw_serial_char_isr`. -/
def rtHwSerialCharIsr (device : SerialDevice) : Option SerialDevice := device.receiveLoop

/-- `rt_hw_serial_timeout_isr`. -/
def rtHwSerialTimeoutIsr (device : SerialDevice) : Option SerialDevice := do
  let device ← device.receiveLoop
  pure { device with indications := device.indications ++ [device.intRx.size] }

/-- `rt_hw_serial_int_tx_isr`. -/
def rtHwSerialIntTxIsr (device : SerialDevice) : Option SerialDevice := do
  let (_, device) ← device.serialPut
  pure device

end SerialDevice

/-- The interrupt sources of `IIR` that the handler serves. -/
inductive Interrupt where
  | rda | cti | thre
deriving DecidableEq, Repr

/-- `UART0_IRQHandler`. -/
def uart0IrqHandler (device : SerialDevice) : Interrupt → Option SerialDevice
  | .rda => { device with recvFifoLength := fifoThreshold }.rtHwSerialCharIsr
  | .cti => { device with recvFifoLength := fifoThreshold }.rtHwSerialTimeoutIsr
  | .thre => { device with sendFifoLength := 0 }.rtHwSerialIntTxIsr

end RtThread.Serial
