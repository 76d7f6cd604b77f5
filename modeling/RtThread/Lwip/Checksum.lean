import RtThread.Lwip.Pbuf
import RtThread.Std.OnesSum

/-!
# The Internet checksum

The three algorithms of `inet_chksum.c`, of which one is compiled in, and the checksums over chains
of pbufs. A pointer is an address of which the alignment counts, and the processor is little-endian.
-/

namespace RtThread.Lwip

open RtThread.Std

/-! ## Folding -/

/-- `FOLD_U32T`. -/
def foldU32t (u : BitVec 32) : BitVec 32 := (u >>> 16) + (u &&& 0xffff)

/-- `SWAP_BYTES_IN_WORD`. -/
def swapBytesInWord (w : BitVec 32) : BitVec 32 := (w &&& 0xff) <<< 8 ||| (w &&& 0xff00) >>> 8

/-- `htons`. -/
def htons (x : BitVec 16) : BitVec 16 := (x &&& 0xff) <<< 8 ||| (x &&& 0xff00) >>> 8

/-- The word that is loaded from two bytes. -/
def loadU16 (low high : BitVec 8) : BitVec 32 := low.setWidth 32 ||| high.setWidth 32 <<< 8

/-! ## The three algorithms -/

/-- The loop of the first algorithm. -/
def addBigEndian (acc : BitVec 32) : List (BitVec 8) → BitVec 32
  | [] => acc
  | [last] => acc + last.setWidth 32 <<< 8
  | first :: second :: rest =>
      addBigEndian (acc + (first.setWidth 32 <<< 8 ||| second.setWidth 32)) rest

/-- `lwip_standard_chksum` with `LWIP_CHKSUM_ALGORITHM` 1. -/
def lwipStandardChksum1 (data : List (BitVec 8)) : BitVec 16 :=
  let acc := addBigEndian 0 data
  let acc := (acc >>> 16) + (acc &&& 0xffff)
  let acc := if acc &&& 0xffff0000 ≠ 0 then (acc >>> 16) + (acc &&& 0xffff) else acc
  htons (acc.setWidth 16)

/-- Add the words of the data, as far as there are two bytes. -/
def addWords (sum : BitVec 32) : List (BitVec 8) → BitVec 32 × List (BitVec 8)
  | low :: high :: rest => addWords (sum + loadU16 low high) rest
  | rest => (sum, rest)

/-- The byte in front of the first word, if there is one, is the high byte of `t`. -/
def takeOdd (odd : Bool) : List (BitVec 8) → BitVec 8 × List (BitVec 8)
  | byte :: rest => if odd then (byte, rest) else (0, byte :: rest)
  | [] => (0, [])

/-- The end bytes are added and the sum is folded. -/
def finishSum (odd : Bool) (sum : BitVec 32) (left : List (BitVec 8)) (t1 : BitVec 8) :
    BitVec 16 :=
  let t0 := left.headD 0
  let sum := sum + loadU16 t0 t1
  let sum := foldU32t sum
  let sum := foldU32t sum
  let sum := if odd then swapBytesInWord sum else sum
  sum.setWidth 16

/-- `lwip_standard_chksum` with `LWIP_CHKSUM_ALGORITHM` 2, the default. -/
def lwipStandardChksum (dataptr : Nat) (data : List (BitVec 8)) : BitVec 16 :=
  let odd := dataptr % 2 == 1
  let (t1, data) := takeOdd odd data
  let (sum, left) := addWords 0 data
  finishSum odd sum left t1

/-- `tmp = sum + *pl++`, with the carry added back. -/
def addBack (sum word : BitVec 32) : BitVec 32 :=
  let tmp := sum + word
  if tmp < sum then tmp + 1 else tmp

/-- The unrolled loop, eight bytes at a time. -/
def addDoubleWords (sum : BitVec 32) : List (BitVec 8) → BitVec 32 × List (BitVec 8)
  | b0 :: b1 :: b2 :: b3 :: b4 :: b5 :: b6 :: b7 :: rest =>
      let ping := addBack sum (loadU16 b0 b1 ||| loadU16 b2 b3 <<< 16)
      let pong := addBack ping (loadU16 b4 b5 ||| loadU16 b6 b7 <<< 16)
      addDoubleWords pong rest
  | rest => (sum, rest)

/-- The word in front of the first double word, if there is one. -/
def takeHalf (half : Bool) : List (BitVec 8) → BitVec 32 × List (BitVec 8)
  | low :: high :: rest => if half then (loadU16 low high, rest) else (0, low :: high :: rest)
  | rest => (0, rest)

/-- `lwip_standard_chksum` with `LWIP_CHKSUM_ALGORITHM` 3. -/
def lwipStandardChksum3 (dataptr : Nat) (data : List (BitVec 8)) : BitVec 16 :=
  let odd := dataptr % 2 == 1
  let pb := if odd ∧ data ≠ [] then dataptr + 1 else dataptr
  let (t1, data) := takeOdd odd data
  let (sum, data) := takeHalf (pb % 4 != 0) data
  let (sum, data) := addDoubleWords sum data
  let sum := foldU32t sum
  let (sum, left) := addWords sum data
  finishSum odd sum left t1

/-! ## Chains of pbufs -/

/-- A pbuf with the address of its payload. -/
structure PlacedPbuf where
  payload : Nat
  data : List (BitVec 8)
deriving DecidableEq, Repr

/-- The loop over a chain: the sum so far, and whether its bytes are swapped. -/
def sumChain (acc : BitVec 32) (swapped : Bool) : List PlacedPbuf → BitVec 32 × Bool
  | [] => (acc, swapped)
  | q :: rest =>
      let acc := foldU32t (acc + (lwipStandardChksum q.payload q.data).setWidth 32)
      if q.data.length % 2 ≠ 0 then sumChain (swapBytesInWord acc) (!swapped) rest
      else sumChain acc swapped rest

/-- `inet_chksum`. -/
def inetChksum (dataptr : Nat) (data : List (BitVec 8)) : BitVec 16 :=
  ~~~ lwipStandardChksum dataptr data

/-- The sum over a chain, with its bytes in order. -/
def chainSum (p : List PlacedPbuf) : BitVec 32 :=
  let (acc, swapped) := sumChain 0 false p
  if swapped then swapBytesInWord acc else acc

def inetChksumPbuf (p : List PlacedPbuf) : BitVec 16 :=
  ~~~ (chainSum p).setWidth 16

/-- The sum of the pseudo header is added, and the whole is folded. -/
def addPseudo (acc src dest : BitVec 32) (proto : BitVec 8) (protoLen : BitVec 16) : BitVec 16 :=
  let acc := acc + (src &&& 0xffff)
  let acc := acc + (src >>> 16 &&& 0xffff)
  let acc := acc + (dest &&& 0xffff)
  let acc := acc + (dest >>> 16 &&& 0xffff)
  let acc := acc + (htons (proto.setWidth 16)).setWidth 32
  let acc := acc + (htons protoLen).setWidth 32
  let acc := foldU32t acc
  let acc := foldU32t acc
  ~~~ acc.setWidth 16

def inetChksumPseudo (p : List PlacedPbuf) (src dest : BitVec 32) (proto : BitVec 8)
    (protoLen : BitVec 16) : BitVec 16 :=
  addPseudo (chainSum p) src dest proto protoLen

/-- The loop of `inet_chksum_pseudo_partial`, which ends behind `chksumLen` bytes. -/
def sumChainPartial (acc : BitVec 32) (swapped : Bool) (chksumLen : Nat) :
    List PlacedPbuf → Option (BitVec 32 × Bool)
  | [] => some (acc, swapped)
  | q :: rest =>
      if chksumLen = 0 then some (acc, swapped)
      else
        let data := q.data.take chksumLen
        let acc := foldU32t (acc + (lwipStandardChksum q.payload data).setWidth 32)
        let chksumLen := chksumLen - data.length
        if chksumLen < 0x7fff then
          if q.data.length % 2 ≠ 0 then
            sumChainPartial (swapBytesInWord acc) (!swapped) chksumLen rest
          else sumChainPartial acc swapped chksumLen rest
        else none

def inetChksumPseudoPartial (p : List PlacedPbuf) (src dest : BitVec 32) (proto : BitVec 8)
    (protoLen chksumLen : BitVec 16) : Option (BitVec 16) :=
  (sumChainPartial 0 false chksumLen.toNat p).map fun (acc, swapped) =>
    addPseudo (if swapped then swapBytesInWord acc else acc) src dest proto protoLen

/-! ## Packets that are changed -/

/-- A checksum in a packet is adjusted when a byte of its word loses as much as `host` says. -/
def adjustChksum (chksum host : BitVec 16) : BitVec 16 :=
  if chksum ≥ htons (0xffff - host) then chksum + htons host + 1 else chksum + htons host

/-- The two bytes of a field in memory. -/
def fieldBytes (field : BitVec 16) : List (BitVec 8) :=
  [field.setWidth 8, (field >>> 8).setWidth 8]

/-- The field that two bytes are. -/
def loadField (low high : BitVec 8) : BitVec 16 := (loadU16 low high).setWidth 16

/-- The answer of `icmp_input` to an echo request: `ICMP_ECHO` becomes `ICMP_ER`. -/
def icmpEchoReply : List (BitVec 8) → Option (List (BitVec 8))
  | type :: code :: c0 :: c1 :: rest =>
      if type = 8 then
        some (0 :: code :: (fieldBytes (adjustChksum (loadField c0 c1) (8 <<< 8)) ++ rest))
      else none
  | _ => none

/-- The header of a packet that `ip_forward` sends on, unless its time to live has run out. -/
def ipForwardHeader : List (BitVec 8) → Option (List (BitVec 8))
  | b0 :: b1 :: b2 :: b3 :: b4 :: b5 :: b6 :: b7 :: ttl :: proto :: c0 :: c1 :: rest =>
      if ttl - 1 = 0 then none
      else
        some (b0 :: b1 :: b2 :: b3 :: b4 :: b5 :: b6 :: b7 :: (ttl - 1) :: proto ::
          (fieldBytes (adjustChksum (loadField c0 c1) 0x100) ++ rest))
  | _ => none

/-- `udp_sendto_if`: zero in the field of the checksum would mean that there is none. -/
def udpChksum (udpchksum : BitVec 16) : BitVec 16 :=
  if udpchksum = 0x0000 then 0xffff else udpchksum

end RtThread.Lwip
