import FujiNet.NetworkProtocol.FS

/-!
# The read command of the N: device

`sioNetwork::sio_read` asks the channel for a number of bytes and sends as many from the start
of `receiveBuffer`, whether they are there or not. Behind the bytes of the buffer stands a NUL,
and behind that whatever the heap holds.
-/

namespace FujiNet.Device

/-- What a read command needs of a channel: its `read`, which returns whether it failed, and the
buffer that it shares with the device. -/
structure Channel (σ : Type*) where
  read : Nat → σ → Bool × σ
  receiveBuffer : σ → List UInt8
  setReceiveBuffer : List UInt8 → σ → σ

/-- The memory behind the buffer. -/
def behind (heap : Nat → UInt8) (n : Nat) : List UInt8 := 0 :: (List.range n).map heap

/-- The `n` bytes from the start of the buffer. -/
def sentFrom (buffer : List UInt8) (heap : Nat → UInt8) (n : Nat) : List UInt8 :=
  buffer.take n ++ (behind heap n).take (n - buffer.length)

/-- What a command sends: an ERROR or a COMPLETE, and the data. -/
structure Reply where
  err : Bool
  data : List UInt8
deriving DecidableEq, Repr

/-- `sio_read`, on an open channel. -/
def Channel.sioRead {σ : Type*} (channel : Channel σ) (heap : Nat → UInt8) (numBytes : Nat) (s : σ) :
    Reply × σ :=
  let (err, s) := channel.read numBytes s
  (⟨err, sentFrom (channel.receiveBuffer s) heap numBytes⟩,
    channel.setReceiveBuffer ((channel.receiveBuffer s).drop numBytes) s)

theorem length_sentFrom (buffer : List UInt8) (heap : Nat → UInt8) (n : Nat) :
    (sentFrom buffer heap n).length = n := by
  simp [sentFrom, behind]
  omega

theorem sentFrom_of_le {buffer : List UInt8} {n : Nat} (heap : Nat → UInt8)
    (enough : n ≤ buffer.length) : sentFrom buffer heap n = buffer.take n := by
  rw [sentFrom, Nat.sub_eq_zero_of_le enough, List.take_zero, List.append_nil]

/-- `sio_read_channel_json`: what is left of `json_bytes_remaining`. -/
def sioReadChannelJson (numBytes : Nat) (jsonBytesRemaining : UInt16) : UInt16 :=
  if numBytes > jsonBytesRemaining.toNat then 0 else jsonBytesRemaining - UInt16.ofNat numBytes

theorem toNat_sioReadChannelJson (numBytes : Nat) (jsonBytesRemaining : UInt16) :
    (sioReadChannelJson numBytes jsonBytesRemaining).toNat = jsonBytesRemaining.toNat - numBytes := by
  rw [sioReadChannelJson]
  split_ifs with more
  · rw [Nat.sub_eq_zero_of_le (Nat.le_of_lt more)]
    rfl
  · have small := jsonBytesRemaining.toNat_lt
    have same : (UInt16.ofNat numBytes).toNat = numBytes := by
      rw [UInt16.toNat_ofNat']
      exact Nat.mod_eq_of_lt (by omega)
    have less : UInt16.ofNat numBytes ≤ jsonBytesRemaining := by
      rw [UInt16.le_iff_toNat_le, same]
      omega
    rw [UInt16.toNat_sub_of_le _ _ less, same]

/-- A file or a directory. -/
def fsChannel : Channel NetworkProtocol.NetworkProtocolFS where
  read := fun len fs => fs.read len
  receiveBuffer := fun fs => fs.receiveBuffer
  setReceiveBuffer := fun receiveBuffer fs => { fs with receiveBuffer }

end FujiNet.Device
