import FujiNet.Fuji.Commands

/-!
# Which replies the Fuji device sends

A command is refused, or it is acknowledged and ends with one outcome, and with data if it returns any;
a data frame from the computer is acknowledged or refused in between, and after a refusal nothing more
is sent. Most of the handlers that receive a frame report an error behind the refusal, those that
collect data even complete, and some that return data leave them out.
-/

namespace FujiNet.Fuji.Commands

open SIO
open Slots (MAX_HOSTS MAX_DISK_DEVICES MAX_FILENAME_LEN)
open FileSystem (FNFS_INVALID_DIRPOS)

/-- How many bytes the command returns. A command on a directory or with output has the number in its
frame; of a hash it is what `HASH LENGTH` answers. -/
def FujiCommand.returns (frame : CmdFrame) (s : SioFuji) : FujiCommand → Option Nat
  | hsioIndex | getWifistatus | getWifiEnabled | hashLength => some 1
  | status | scanNetworks | base64EncodeLength | base64DecodeLength => some 4
  | getScanResult => some 34
  | getSsid => some 97
  | readDirEntry =>
    if frame.aux2 &&& 0xC0 = 0xC0 then some (((frame.aux2 &&& 0x07).toNat + 1) * 256)
    else some frame.aux1.toNat
  | getDirectoryPosition => some 2
  | readHostSlots | getHostPrefix | getDeviceFullpath => some 256
  | readDeviceSlots => some 304
  | getAdapterconfig => if frame.aux1 = 1 then some 240 else some 140
  | readAppkey => some 66
  | base64EncodeOutput | base64DecodeOutput => some (u16 frame.aux1 frame.aux2)
  | hashOutput => some (SioFuji.hashSize s.hashMode)
  | _ => none

/-- What may be sent for a command that returns so many bytes. -/
def WellFormed (returns : Option Nat) : List BusEvent → Prop
  | [.nak] | [.ack _, .nak] => True
  | [.ack _, .complete] | [.ack _, .error] | [.ack _, .ack _, .complete] | [.ack _, .ack _, .error] =>
    returns = none
  | [.ack _, .complete, .frame bytes checksum] | [.ack _, .error, .frame bytes checksum] =>
    returns = some bytes.length ∧ checksum = sioChecksum bytes
  | _ => False

section

variable (around : Surroundings) (frame : CmdFrame) (s : SioFuji)

/-- The command is answered by one of the sequences. -/
def Conforms : Prop :=
  ∃ events, (s.sioProcess around frame).bus.sent = s.bus.sent ++ events ∧
    WellFormed ((FujiCommand.ofCode frame.comnd).bind (·.returns frame s)) events

/-- The data frame that is received into the buffer has the right checksum. -/
def FrameGood (buf : List UInt8) : Prop :=
  sioChecksum (Bus.receive around.incoming buf buf.length) = around.incoming.checksum

instance (buf : List UInt8) : Decidable (FrameGood around buf) := inferInstanceAs (Decidable (_ = _))

/-- The disk of a slot mounts, if there is one. -/
def Mounts (i : Fin MAX_DISK_DEVICES) : Prop :=
  s.hostSlots i ≠ Slots.INVALID_HOST_SLOT →
    (s.mountAt around (s.hostSlots i)).1 = true ∧ around.imageOpens i = true

/-- The disk of a slot, if there is one, is on a host that exists, and its image is not one that `mount`
does not return from. -/
def MountReturns (i : Fin MAX_DISK_DEVICES) : Prop :=
  s.hostSlots i ≠ Slots.INVALID_HOST_SLOT →
    (s.hostSlots i).toNat < MAX_HOSTS ∧
      ((s.mountAt around (s.hostSlots i)).1 = true → around.imageOpens i = true →
        around.imageMounts i = true)

/-- Data frames that a handler tests twice have the right checksum, keys are written whole, what returns
data has them, and images and hosts can be used where they are taken for granted. -/
def FujiCommand.Regular : FujiCommand → Prop
  | setSsid => FrameGood around (around.memory (MAX_SSID_LEN + 1 + MAX_WIFI_PASS_LEN))
  | newDisk => FrameGood around (around.memory (6 + MAX_FILENAME_LEN))
  | writeHostSlots =>
    let buf := around.memory (MAX_HOSTS * MAX_HOSTNAME_LEN)
    FrameGood around buf ∧ ∀ i, (s.hosts i).MayRename
      (SioFuji.hostnameIn (Bus.receive around.incoming buf buf.length) i)
  | writeDeviceSlots =>
    FrameGood around (around.memory (MAX_DISK_DEVICES * (2 + MAX_DISPLAY_FILENAME_LEN)))
  | openDirectory => FrameGood around (around.memory 256)
  | setHostPrefix | setDeviceFullpath => FrameGood around (around.memory MAX_FILENAME_LEN)
  | enableUdpstream => FrameGood around (around.memory 64)
  | openAppkey => FrameGood around s.currentAppkey.toBytes
  | copyFile => around.mallocSucceeds = true → FrameGood around (List.replicate 256 0)
  | writeAppkey =>
    FrameGood around (around.memory MAX_APPKEY_LEN) → s.currentAppkey.creator ≠ 0 →
      s.currentAppkey.mode = APPKEYMODE_WRITE → around.sdRunning = true → around.keyOpens = true →
        around.keyWritten (u16 frame.aux1 frame.aux2) = u16 frame.aux1 frame.aux2
  | base64EncodeInput | base64DecodeInput | hashInput =>
    u16 frame.aux1 frame.aux2 ≠ 0 → around.mallocSucceeds = true →
      FrameGood around (around.memory (u16 frame.aux1 frame.aux2))
  | base64EncodeLength => s.base64Buffer ≠ []
  | base64EncodeOutput | base64DecodeOutput =>
    u16 frame.aux1 frame.aux2 ≠ 0 ∧ u16 frame.aux1 frame.aux2 ≤ s.base64Buffer.length ∧
      around.mallocSucceeds = true
  | hashOutput => u16 frame.aux1 frame.aux2 = 1 → SioFuji.hashSize s.hashMode = 0
  | mountImage =>
    ∀ h : frame.aux1.toNat < MAX_DISK_DEVICES, (s.hostSlots ⟨frame.aux1.toNat, h⟩).toNat < MAX_HOSTS →
      around.imageOpens frame.aux1.toNat = true → around.imageMounts frame.aux1.toNat = true
  | mountAll => ∀ i, (∀ j < i, Mounts around s j) → MountReturns around s i
  | setBootMode => frame.aux1 ≤ 1 → around.bootImageMounts = true
  | readDirEntry => ∃ slot, s.currentOpenDirectorySlot = some slot ∧ (s.hosts slot).val.Ready
  | getDirectoryPosition => s.currentOpenDirectorySlot ≠ none ∧ around.dirTell ≠ FNFS_INVALID_DIRPOS
  | readDeviceSlots => frame.aux1 = READ_DEVICE_SLOTS_DISKS1
  | getHostPrefix => frame.aux1.toNat < MAX_HOSTS
  | _ => True

end

/-! ## What the parts send -/

namespace SioFuji

variable {around : Surroundings} {frame : CmdFrame} {s t u : SioFuji} {events : List BusEvent}

/-- From `s` to `t`, these are sent. -/
def Sends (s t : SioFuji) (events : List BusEvent) : Prop := t.bus.sent = s.bus.sent ++ events

theorem Sends.trans {more : List BusEvent} (first : Sends s t events) (second : Sends t u more) :
    Sends s u (events ++ more) := by
  rw [Sends, second, first, List.append_assoc]

theorem sends_sioError : Sends s s.sioError [.error] := rfl

/-- The outcome of a command. -/
def outcome (err : Bool) : BusEvent := if err then .error else .complete

theorem sends_busToComputer (buf : List UInt8) (err : Bool) :
    Sends s (s.busToComputer buf err) [outcome err, .frame buf (sioChecksum buf)] := by
  cases err <;> exact List.append_assoc ..

/-- One outcome and no data. -/
def Ends (s t : SioFuji) : Prop := ∃ err, Sends s t [outcome err]

/-- What else has changed does not matter. -/
theorem ends_sioComplete (same : t.bus.sent = s.bus.sent) : Ends s t.sioComplete :=
  ⟨false, by rw [Sends, ← same]; rfl⟩

theorem ends_sioError (same : t.bus.sent = s.bus.sent) : Ends s t.sioError :=
  ⟨true, by rw [Sends, ← same]; rfl⟩

/-- One outcome and so many bytes. -/
def Returns (n : Nat) (s t : SioFuji) : Prop :=
  ∃ err bytes, bytes.length = n ∧ Sends s t [outcome err, .frame bytes (sioChecksum bytes)]

theorem returns_busToComputer {buf : List UInt8} {n : Nat} (length : buf.length = n) (err : Bool) :
    Returns n s (s.busToComputer buf err) := ⟨err, buf, length, sends_busToComputer buf err⟩

@[simp] theorem length_zeroed (len : Nat) (bytes : List UInt8) : (zeroed len bytes).length = len := by
  rw [zeroed, List.length_take, List.length_append, List.length_replicate]
  omega

@[simp] theorem length_memory (len : Nat) : (around.memory len).length = len := by
  rw [Surroundings.memory, List.length_map, List.length_range]

theorem length_receive (incoming : DataFrame) (buf : List UInt8) :
    (Bus.receive incoming buf buf.length).length = buf.length := by
  refine length_overlay _ _ _ ?_
  rw [List.length_take]
  omega

theorem sends_busToPeripheral (around : Surroundings) (buf : List UInt8) (s : SioFuji) :
    Sends s (s.busToPeripheral around buf).2 [if FrameGood around buf then .ack false else .nak] := by
  have whole : (Bus.receive around.incoming buf buf.length).take buf.length =
      Bus.receive around.incoming buf buf.length :=
    List.take_of_length_le (length_receive around.incoming buf).le
  rw [Sends, busToPeripheral, Bus.busToPeripheral]
  dsimp only
  rw [whole]
  by_cases good : FrameGood around buf
  · rw [if_pos good, if_neg (not_not.mpr (Eq.symm good))]
    rfl
  · rw [if_neg good, if_pos (Ne.symm good)]
    rfl

/-- A handler that starts with a frame takes what it has received. -/
theorem withFrame_good {buf : List UInt8} (good : FrameGood around buf)
    (accept : List UInt8 → SioFuji → SioFuji) :
    s.withFrame around buf accept = accept (Bus.receive around.incoming buf buf.length)
      (s.busToPeripheral around buf).2 := if_neg (not_not.mpr good)

/-- It reports an error behind a refusal. -/
theorem sends_withFrame_bad {buf : List UInt8} (bad : ¬ FrameGood around buf)
    (accept : List UInt8 → SioFuji → SioFuji) :
    Sends s (s.withFrame around buf accept) [.nak, .error] := by
  have received := sends_busToPeripheral around buf s
  rw [if_neg bad] at received
  have refused : s.withFrame around buf accept = (s.busToPeripheral around buf).2.sioError := if_pos bad
  rw [refused]
  exact received.trans sends_sioError

/-! ## The hosts -/

theorem mountAt_bus (around : Surroundings) (hostSlot : UInt8) (s : SioFuji) :
    (s.mountAt around hostSlot).2.bus = s.bus := by
  rw [mountAt]
  split <;> rfl

theorem mountAt_hostSlots (around : Surroundings) (hostSlot : UInt8) (s : SioFuji) :
    (s.mountAt around hostSlot).2.hostSlots = s.hostSlots := by
  rw [mountAt]
  split <;> rfl

theorem mountAt_inside {hostSlot : UInt8} (inside : hostSlot.toNat < MAX_HOSTS) :
    s.mountAt around hostSlot =
      (((s.hosts ⟨hostSlot.toNat, inside⟩).mount around.outside).1, s.setHost ⟨hostSlot.toNat, inside⟩
        ((s.hosts ⟨hostSlot.toNat, inside⟩).mount around.outside).2) := dif_pos inside

theorem mountAt_congr (same : s.hosts = t.hosts) (hostSlot : UInt8) :
    (s.mountAt around hostSlot).1 = (t.mountAt around hostSlot).1 := by
  rw [mountAt, mountAt, same]
  split <;> rfl

/-- A host that is mounted makes no difference to what can be mounted. -/
theorem mountAt_again {hostSlot : UInt8} (success : (s.mountAt around hostSlot).1 = true)
    (other : UInt8) :
    ((s.mountAt around hostSlot).2.mountAt around other).1 = (s.mountAt around other).1 := by
  have inside : hostSlot.toNat < MAX_HOSTS := by
    by_contra outside
    rw [mountAt, dif_neg outside] at success
    cases success
  rw [mountAt_inside inside] at success ⊢
  by_cases there : other.toNat < MAX_HOSTS
  · rw [mountAt_inside there, mountAt_inside there]
    dsimp only [setHost]
    by_cases same : other = hostSlot
    · subst same
      rw [Function.update_self]
      exact (HostSlot.mounts_again success).trans success.symm
    · rw [Function.update_of_ne]
      exact fun no => same (UInt8.toNat_inj.mp (Fin.mk.inj no))
  · rw [mountAt, mountAt, dif_neg there, dif_neg there]

/-- With the same disks on the same hosts, the same can be mounted. -/
theorem alike_of_same (around : Surroundings) (s t : SioFuji)
    (same : ∀ hostSlot, (t.mountAt around hostSlot).1 = (s.mountAt around hostSlot).1)
    (hostSlots : t.hostSlots = s.hostSlots) (i : Fin MAX_DISK_DEVICES) :
    (Mounts around t i ↔ Mounts around s i) ∧ (MountReturns around t i ↔ MountReturns around s i) := by
  simp only [Mounts, MountReturns, same, hostSlots, and_self]

theorem bus_mountSlots {slots : List (Fin MAX_DISK_DEVICES)} {s : SioFuji} {answer : Bool × SioFuji}
    (done : s.mountSlots around slots = some answer) : answer.2.bus = s.bus := by
  induction slots generalizing s with
  | nil =>
    cases done
    rfl
  | cons i slots ih =>
    rw [mountSlots] at done
    dsimp only at done
    split_ifs at done
    · exact (ih done).trans (mountAt_bus ..)
    · cases done
      exact mountAt_bus ..
    · cases done
      exact mountAt_bus ..
    · exact ih done

/-- The loop ends if it does at every slot that it comes to. -/
theorem mountSlots_isSome_iff (around : Surroundings) {slots : List (Fin MAX_DISK_DEVICES)}
    (sorted : slots.Pairwise (· < ·)) (s : SioFuji) : (s.mountSlots around slots).isSome ↔
      ∀ i ∈ slots, (∀ j ∈ slots, j < i → Mounts around s j) → MountReturns around s i := by
  induction slots generalizing s with
  | nil => simp [mountSlots]
  | cons i slots ih =>
    obtain ⟨first, sorted⟩ := List.pairwise_cons.mp sorted
    have split : (∀ k ∈ i :: slots, (∀ j ∈ i :: slots, j < k → Mounts around s j) →
        MountReturns around s k) ↔ MountReturns around s i ∧ (Mounts around s i →
          ∀ k ∈ slots, (∀ j ∈ slots, j < k → Mounts around s j) → MountReturns around s k) := by
      constructor
      · refine fun all => ⟨all i List.mem_cons_self fun j at' before => ?_, fun mounts k at' earlier => ?_⟩
        · rcases List.mem_cons.mp at' with rfl | later
          · exact absurd before (lt_irrefl _)
          · exact absurd (before.trans (first j later)) (lt_irrefl _)
        · refine all k (List.mem_cons_of_mem i at') fun j there before => ?_
          rcases List.mem_cons.mp there with rfl | later
          · exact mounts
          · exact earlier j later before
      · rintro ⟨head, rest⟩ k at' earlier
        rcases List.mem_cons.mp at' with rfl | later
        · exact head
        · exact rest (earlier i List.mem_cons_self (first k later)) k later fun j there =>
            earlier j (List.mem_cons_of_mem i there)
    rw [split, mountSlots]
    by_cases vacant : s.hostSlots i = Slots.INVALID_HOST_SLOT
    · rw [if_neg (not_not.mpr vacant), ih sorted s]
      exact ⟨fun rest => ⟨fun occupied => absurd vacant occupied, fun _ => rest⟩,
        fun all => all.2 fun occupied => absurd vacant occupied⟩
    rw [if_pos vacant]
    by_cases inside : (s.hostSlots i).toNat < MAX_HOSTS
    · rw [if_pos inside]
      dsimp only
      by_cases mounted : (s.mountAt around (s.hostSlots i)).1 = true
      · rw [if_neg (not_not.mpr mounted)]
        by_cases opens : around.imageOpens i = true
        · rw [if_neg (not_not.mpr opens)]
          by_cases mounts : around.imageMounts i = true
          · -- The loop goes on, and the other slots can be mounted as before.
            rw [if_neg (not_not.mpr mounts), ih sorted]
            have same (other : UInt8) : (SioFuji.mountAt around other
                { (s.mountAt around (s.hostSlots i)).2 with bootConfig := false }).1 =
                  (s.mountAt around other).1 := by
              rw [← mountAt_again mounted other]
              refine mountAt_congr ?_ other
              rfl
            have alike := alike_of_same around s _ same (mountAt_hostSlots ..)
            rw [forall₂_congr fun k _ => imp_congr (forall₃_congr fun j _ _ => (alike j).1) (alike k).2]
            exact ⟨fun rest => ⟨fun _ => ⟨inside, fun _ _ => mounts⟩, fun _ => rest⟩,
              fun all => all.2 fun _ => ⟨mounted, opens⟩⟩
          · rw [if_pos mounts]
            exact iff_of_false Bool.false_ne_true fun all => mounts ((all.1 vacant).2 mounted opens)
        · rw [if_pos opens]
          exact iff_of_true rfl ⟨fun _ => ⟨inside, fun _ opens' => absurd opens' opens⟩,
            fun here => absurd (here vacant).2 opens⟩
      · rw [if_pos mounted]
        exact iff_of_true rfl ⟨fun _ => ⟨inside, fun mounted' => absurd mounted' mounted⟩,
          fun here => absurd (here vacant).1 mounted⟩
    · rw [if_neg inside]
      exact iff_of_false Bool.false_ne_true fun all => inside (all.1 vacant).1

theorem bus_setHostnames {hostname : Fin MAX_HOSTS → List Char} {slots : List (Fin MAX_HOSTS)}
    {s t : SioFuji} (done : s.setHostnames hostname slots = some t) : t.bus = s.bus := by
  induction slots generalizing s with
  | nil =>
    cases done
    rfl
  | cons i slots ih =>
    rw [setHostnames] at done
    split at done
    · cases done
    · exact (ih done).trans rfl

theorem setHostnames_isSome_iff (hostname : Fin MAX_HOSTS → List Char) {slots : List (Fin MAX_HOSTS)}
    (once : slots.Nodup) (s : SioFuji) :
    (s.setHostnames hostname slots).isSome ↔ ∀ i ∈ slots, (s.hosts i).MayRename (hostname i) := by
  induction slots generalizing s with
  | nil => simp [setHostnames]
  | cons i slots ih =>
    obtain ⟨fresh, once⟩ := List.nodup_cons.mp once
    rw [List.forall_mem_cons, ← HostSlot.setHostname_isSome_iff, setHostnames]
    cases (s.hosts i).setHostname (hostname i) with
    | none => exact iff_of_false Bool.false_ne_true fun all => Bool.false_ne_true all.1
    | some host =>
      refine (ih once _).trans (Iff.trans (forall₂_congr fun j later => ?_) (and_iff_right rfl).symm)
      have other : (s.setHost i host).hosts j = s.hosts j := Function.update_of_ne ?_ ..
      · rw [other]
      exact fun same => fresh (same ▸ later)

/-! ## The handlers, kind by kind -/

theorem ends_ite {p : Prop} [Decidable p] {s t u : SioFuji} (yes : Ends s t) (no : Ends s u) :
    Ends s (if p then t else u) := by
  split
  · exact yes
  · exact no

theorem ends_dite {p : Prop} [Decidable p] {s : SioFuji} {t : p → SioFuji} {u : ¬ p → SioFuji}
    (yes : ∀ h, Ends s (t h)) (no : ∀ h, Ends s (u h)) : Ends s (if h : p then t h else u h) := by
  split
  · next h => exact yes h
  · next h => exact no h

theorem ends_compute (f : List UInt8 → Option (List UInt8)) : Ends s (s.compute f) := by
  rw [compute]
  cases f s.base64Buffer with
  | none => exact ends_sioError rfl
  | some p => exact ends_sioComplete rfl

theorem ends_sioMountHost : Ends s (s.sioMountHost around frame) := by
  have sent := congrArg Bus.sent (mountAt_bus around frame.aux1 s)
  exact ends_ite (ends_ite (ends_sioError sent) (ends_sioComplete sent)) (ends_sioError rfl)

theorem ends_sioUnmountHost : Ends s (s.sioUnmountHost frame) := by
  have same (hostSlot : UInt8) (slots : List (Fin MAX_DISK_DEVICES)) (s : SioFuji) :
      (slots.foldl (fun s i => if s.hostSlots i = hostSlot then
        s.setSlot i Slots.INVALID_HOST_SLOT Slots.DISK_ACCESS_MODE_READ else s) s).bus = s.bus := by
    induction slots generalizing s with
    | nil => rfl
    | cons i slots ih =>
      refine (ih _).trans ?_
      dsimp only
      split <;> rfl
  have sent := congrArg Bus.sent (same (frame.aux1 - 1) (List.finRange MAX_DISK_DEVICES) s)
  rw [sioUnmountHost]
  dsimp only
  generalize (List.finRange MAX_DISK_DEVICES).foldl _ s = t at sent ⊢
  split
  · exact ends_ite (ends_sioError sent) (ends_sioComplete sent)
  · exact ends_sioError rfl

theorem mountAll_cases (around : Surroundings) (s : SioFuji) :
    ((∀ i, (∀ j < i, Mounts around s j) → MountReturns around s i) ∧ Ends s (s.mountAll around)) ∨
      (¬ (∀ i, (∀ j < i, Mounts around s j) → MountReturns around s i) ∧ s.mountAll around = s) := by
  have loop := mountSlots_isSome_iff around (List.pairwise_lt_finRange MAX_DISK_DEVICES) s
  simp only [List.mem_finRange, forall_true_left] at loop
  rw [← loop, mountAll]
  cases done : s.mountSlots around (List.finRange MAX_DISK_DEVICES) with
  | none => exact .inr ⟨Bool.false_ne_true, rfl⟩
  | some answer =>
    have sent := congrArg Bus.sent (bus_mountSlots done)
    obtain ⟨mounted, t⟩ := answer
    refine .inl ⟨rfl, ?_⟩
    cases mounted with
    | false => exact ends_sioError sent
    | true => exact ends_sioComplete sent

theorem ends_sioHashCompute : Ends s (s.sioHashCompute around frame) := by
  refine ⟨false, ?_⟩
  rw [sioHashCompute]
  dsimp only
  split <;> rfl

theorem returns_sioReadHostSlots : Returns 256 s s.sioReadHostSlots := by
  refine returns_busToComputer ?_ false
  simp [List.length_flatMap, MAX_HOSTNAME_LEN, MAX_HOSTS]

theorem returns_sioReadAppKey : Returns 66 s (s.sioReadAppKey around) := by
  rw [sioReadAppKey]
  dsimp only
  split_ifs <;> exact returns_busToComputer (length_zeroed _ _) _

/-- Input is answered though its checksum is wrong. -/
theorem sends_takeInput (around : Surroundings) (frame : CmdFrame) (s : SioFuji) :
    if u16 frame.aux1 frame.aux2 = 0 ∨ around.mallocSucceeds = false then
      Sends s (s.takeInput around frame) [.error]
    else Sends s (s.takeInput around frame)
      [if FrameGood around (around.memory (u16 frame.aux1 frame.aux2)) then .ack false else .nak,
        .complete] := by
  rw [takeInput]
  dsimp only
  by_cases empty : u16 frame.aux1 frame.aux2 = 0
  · rw [if_pos (.inl empty), if_pos empty]
    exact sends_sioError
  · rw [if_neg empty]
    by_cases malloc : around.mallocSucceeds = false
    · rw [if_pos (.inr malloc), if_pos (by simp [malloc])]
      exact sends_sioError
    · rw [if_neg (not_or.mpr ⟨empty, malloc⟩), if_neg (not_not.mpr (by simpa using malloc))]
      exact (sends_busToPeripheral around _ s).trans rfl

end SioFuji

/-! ## The grammar -/

open SioFuji

variable {around : Surroundings} {frame : CmdFrame} {s : SioFuji} {c : FujiCommand}

/-- The device when the command is acknowledged. -/
def acked (c : FujiCommand) (s : SioFuji) : SioFuji :=
  s.onBus (if lateAck c then Bus.sioLateAck else Bus.sioAck)

theorem directory_acked (c : FujiCommand) (s : SioFuji) :
    (acked c s).currentOpenDirectorySlot = s.currentOpenDirectorySlot := rfl

theorem sends_acked (c : FujiCommand) (s : SioFuji) : ∃ late, Sends s (acked c s) [.ack late] := by
  rw [acked]
  split
  · by_cases netsio : s.bus.netsio = true
    · exact ⟨true, by rw [Sends, onBus, Bus.sioLateAck, if_pos netsio]; rfl⟩
    · exact ⟨false, by rw [Sends, onBus, Bus.sioLateAck, if_neg netsio]; rfl⟩
  · exact ⟨false, rfl⟩

/-- The kind of acknowledge makes no difference. -/
theorem wellFormed_ack (returns : Option Nat) (late : Bool) (events : List BusEvent) :
    WellFormed returns (.ack late :: events) ↔ WellFormed returns (.ack false :: events) := by
  rcases events with _ | ⟨first, _ | ⟨second, _ | ⟨third, rest⟩⟩⟩
  · exact Iff.rfl
  · cases first <;> exact Iff.rfl
  · cases first <;> cases second <;> exact Iff.rfl
  · cases first <;> cases second <;> exact Iff.rfl

/-- The answer behind the acknowledge decides. -/
theorem conforms_iff_wellFormed (known : FujiCommand.ofCode frame.comnd = some c)
    (events : List BusEvent) (sends : Sends (acked c s) (handle around frame c (acked c s)) events) :
    Conforms around frame s ↔ WellFormed (c.returns frame s) (.ack false :: events) := by
  obtain ⟨late, ack⟩ := sends_acked c s
  have sent : (s.sioProcess around frame).bus.sent = s.bus.sent ++ (.ack late :: events) := by
    rw [SioFuji.sioProcess, known]
    exact ack.trans sends
  rw [Conforms, known, sent, ← wellFormed_ack _ late]
  constructor
  · rintro ⟨_, same, wellFormed⟩
    rwa [← List.append_cancel_left same] at wellFormed
  · exact fun wellFormed => ⟨_, rfl, wellFormed⟩

theorem conforms_of_ends (known : FujiCommand.ofCode frame.comnd = some c)
    (none : c.returns frame s = none) (ends : Ends (acked c s) (handle around frame c (acked c s))) :
    Conforms around frame s := by
  obtain ⟨err, sends⟩ := ends
  rw [conforms_iff_wellFormed known _ sends, none]
  cases err <;> rfl

theorem not_conforms_of_ends {n : Nat} (known : FujiCommand.ofCode frame.comnd = some c)
    (some : c.returns frame s = some n)
    (ends : Ends (acked c s) (handle around frame c (acked c s))) : ¬ Conforms around frame s := by
  obtain ⟨err, sends⟩ := ends
  rw [conforms_iff_wellFormed known _ sends, some]
  cases err <;> exact fun no => nomatch no

theorem conforms_of_returns {n : Nat} (known : FujiCommand.ofCode frame.comnd = some c)
    (some : c.returns frame s = some n)
    (returns : Returns n (acked c s) (handle around frame c (acked c s))) :
    Conforms around frame s := by
  obtain ⟨err, bytes, length, sends⟩ := returns
  rw [conforms_iff_wellFormed known _ sends, some, ← length]
  cases err <;> exact ⟨rfl, rfl⟩

theorem conforms_of_received (known : FujiCommand.ofCode frame.comnd = some c)
    (none : c.returns frame s = none) {buf : List UInt8} (good : FrameGood around buf)
    (ends : Ends ((acked c s).busToPeripheral around buf).2 (handle around frame c (acked c s))) :
    Conforms around frame s := by
  have received := sends_busToPeripheral around buf (acked c s)
  rw [if_pos good] at received
  obtain ⟨err, ended⟩ := ends
  rw [conforms_iff_wellFormed known _ (received.trans ended), none]
  cases err <;> rfl

/-- Behind a fault only the acknowledge was sent. -/
theorem not_conforms_of_fault (known : FujiCommand.ofCode frame.comnd = some c)
    (fault : handle around frame c (acked c s) = acked c s) : ¬ Conforms around frame s := by
  have silent : Sends (acked c s) (handle around frame c (acked c s)) [] := by
    rw [fault]
    exact (List.append_nil _).symm
  exact fun conforms => (conforms_iff_wellFormed known _ silent).mp conforms

theorem not_conforms_of_bad (known : FujiCommand.ofCode frame.comnd = some c) {buf : List UInt8}
    (bad : ¬ FrameGood around buf) {accept : List UInt8 → SioFuji → SioFuji}
    (handler : handle around frame c (acked c s) = (acked c s).withFrame around buf accept) :
    ¬ Conforms around frame s := by
  rw [conforms_iff_wellFormed known _ (handler ▸ sends_withFrame_bad bad accept)]
  exact id

theorem conforms_iff_of_withFrame (known : FujiCommand.ofCode frame.comnd = some c)
    (none : c.returns frame s = none) {buf : List UInt8} {accept : List UInt8 → SioFuji → SioFuji}
    (handler : handle around frame c (acked c s) = (acked c s).withFrame around buf accept)
    (ends : ∀ buf s, Ends s (accept buf s)) :
    Conforms around frame s ↔ FrameGood around buf := by
  by_cases good : FrameGood around buf
  · refine iff_of_true (conforms_of_received known none good ?_) good
    rw [handler, withFrame_good good]
    exact ends _ _
  · exact iff_of_false (not_conforms_of_bad known good handler) good

/-- A host that cannot get its name ends the process behind the acknowledge of the frame. -/
theorem conforms_writeHostSlots_iff (known : FujiCommand.ofCode frame.comnd = some .writeHostSlots) :
    Conforms around frame s ↔ FujiCommand.writeHostSlots.Regular around frame s := by
  have handler : handle around frame .writeHostSlots (acked .writeHostSlots s) =
      (acked .writeHostSlots s).withFrame around (around.memory (MAX_HOSTS * MAX_HOSTNAME_LEN))
        renameHosts := rfl
  rw [FujiCommand.Regular]
  generalize around.memory (MAX_HOSTS * MAX_HOSTNAME_LEN) = buf at handler ⊢
  by_cases good : FrameGood around buf
  · have received := sends_busToPeripheral around buf (acked .writeHostSlots s)
    rw [withFrame_good good, renameHosts] at handler
    rw [if_pos good] at received
    have names := setHostnames_isSome_iff (hostnameIn (Bus.receive around.incoming buf buf.length))
      (List.nodup_finRange MAX_HOSTS) ((acked .writeHostSlots s).busToPeripheral around buf).2
    simp only [List.mem_finRange, forall_true_left] at names
    refine Iff.trans ?_ (names.trans (and_iff_right good).symm)
    cases done : ((acked .writeHostSlots s).busToPeripheral around buf).2.setHostnames
        (hostnameIn (Bus.receive around.incoming buf buf.length)) (List.finRange MAX_HOSTS) with
    | none =>
      rw [done] at handler
      rw [conforms_iff_wellFormed known [.ack false] (by rw [handler]; exact received)]
      exact iff_of_false id Bool.false_ne_true
    | some t =>
      rw [done] at handler
      refine iff_of_true (conforms_of_received known rfl good ?_) rfl
      rw [handler]
      exact ends_sioComplete (congrArg Bus.sent (bus_setHostnames done))
  · exact iff_of_false (not_conforms_of_bad known good handler) fun regular => good regular.1

theorem conforms_openAppkey_iff (known : FujiCommand.ofCode frame.comnd = some .openAppkey) :
    Conforms around frame s ↔ FrameGood around s.currentAppkey.toBytes := by
  by_cases good : FrameGood around s.currentAppkey.toBytes
  · have checked : (acked .openAppkey s).sioOpenAppKey around = _ := if_neg (not_not.mpr good)
    refine iff_of_true (conforms_of_received known rfl good ?_) good
    rw [handle, checked]
    exact ends_ite (ends_sioError rfl) (ends_ite (ends_sioError rfl) (ends_sioComplete rfl))
  · have received := sends_busToPeripheral around s.currentAppkey.toBytes (acked .openAppkey s)
    rw [if_neg good] at received
    have refused : (acked .openAppkey s).sioOpenAppKey around = _ := if_pos good
    refine iff_of_false ?_ good
    rw [conforms_iff_wellFormed known ([.nak] ++ [.error])]
    · exact fun no => nomatch no
    · rw [handle, refused]
      exact received.trans rfl

theorem conforms_takeInput_iff (known : FujiCommand.ofCode frame.comnd = some c)
    (none : c.returns frame s = none)
    (handler : handle around frame c (acked c s) = (acked c s).takeInput around frame) :
    Conforms around frame s ↔ (u16 frame.aux1 frame.aux2 ≠ 0 → around.mallocSucceeds = true →
      FrameGood around (around.memory (u16 frame.aux1 frame.aux2))) := by
  have sends := sends_takeInput around frame (acked c s)
  rw [← handler] at sends
  by_cases refused : u16 frame.aux1 frame.aux2 = 0 ∨ around.mallocSucceeds = false
  · rw [if_pos refused] at sends
    rw [conforms_iff_wellFormed known _ sends, none]
    refine iff_of_true rfl fun length malloc => ?_
    exact absurd (refused.resolve_left length) (by simp [malloc])
  · rw [if_neg refused] at sends
    obtain ⟨length, malloc⟩ := not_or.mp refused
    rw [conforms_iff_wellFormed known _ sends, none, forall_prop_of_true length,
      forall_prop_of_true (by simpa using malloc)]
    split
    · next good => exact iff_of_true rfl good
    · next bad => exact iff_of_false (fun no => nomatch no) bad

/-- A short write is answered by an error, and then completed. -/
theorem conforms_writeAppkey_iff (known : FujiCommand.ofCode frame.comnd = some .writeAppkey) :
    Conforms around frame s ↔ FujiCommand.writeAppkey.Regular around frame s := by
  have received := sends_busToPeripheral around (around.memory MAX_APPKEY_LEN) (acked .writeAppkey s)
  rw [FujiCommand.Regular]
  by_cases good : FrameGood around (around.memory MAX_APPKEY_LEN)
  · have checked : (acked .writeAppkey s).sioWriteAppKey around frame = _ := if_neg (not_not.mpr good)
    rw [if_pos good] at received
    have conforms (ends : Ends ((acked .writeAppkey s).busToPeripheral around
        (around.memory MAX_APPKEY_LEN)).2 ((acked .writeAppkey s).sioWriteAppKey around frame)) :
        Conforms around frame s := conforms_of_received known rfl good ends
    rw [forall_prop_of_true good]
    by_cases closed : s.currentAppkey.creator = 0 ∨ s.currentAppkey.mode ≠ APPKEYMODE_WRITE
    · refine iff_of_true (conforms ?_) fun creator mode => absurd closed (not_or.mpr ⟨creator, ?_⟩)
      · exact (checked.trans (if_pos closed)).symm ▸ ends_sioError rfl
      · exact not_not.mpr mode
    · replace checked := checked.trans (if_neg closed)
      rw [not_or, not_not] at closed
      rw [forall_prop_of_true closed.1, forall_prop_of_true closed.2]
      by_cases running : around.sdRunning = true
      · replace checked := checked.trans (if_neg (not_not.mpr running))
        rw [forall_prop_of_true running]
        by_cases opens : around.keyOpens = true
        · replace checked := checked.trans (if_neg (not_not.mpr opens))
          rw [forall_prop_of_true opens]
          by_cases whole : around.keyWritten (u16 frame.aux1 frame.aux2) = u16 frame.aux1 frame.aux2
          · refine iff_of_true (conforms ?_) whole
            rw [checked]
            dsimp only
            rw [if_neg (not_not.mpr whole)]
            exact ends_sioComplete rfl
          · refine iff_of_false ?_ whole
            rw [conforms_iff_wellFormed known ([.ack false] ++ ([.error] ++ [.complete]))]
            · exact fun no => nomatch no
            · rw [handle, checked]
              dsimp only
              rw [if_pos whole]
              exact received.trans (Sends.trans (t := SioFuji.sioError _) rfl rfl)
        · refine iff_of_true (conforms ?_) fun yes => absurd yes opens
          exact (checked.trans (if_pos opens)).symm ▸ ends_sioError rfl
      · refine iff_of_true (conforms ?_) fun yes => absurd yes running
        exact (checked.trans (if_pos running)).symm ▸ ends_sioError rfl
  · rw [if_neg good] at received
    have refused : (acked .writeAppkey s).sioWriteAppKey around frame = _ := if_pos good
    refine iff_of_true ?_ fun yes => absurd yes good
    rw [conforms_iff_wellFormed known ([.nak])]
    · trivial
    · rw [handle, refused]
      exact received

theorem conforms_encodeLength_iff
    (known : FujiCommand.ofCode frame.comnd = some .base64EncodeLength) :
    Conforms around frame s ↔ s.base64Buffer ≠ [] := by
  have handler : handle around frame .base64EncodeLength (acked .base64EncodeLength s) = _ := rfl
  by_cases empty : s.base64Buffer = []
  · -- The frame of the error is followed by another one.
    refine iff_of_false ?_ (not_not.mpr empty)
    have sends : Sends (acked .base64EncodeLength s)
        (handle around frame .base64EncodeLength (acked .base64EncodeLength s))
        ([outcome true, .frame (le32 0) (sioChecksum (le32 0))] ++
          [outcome false, .frame (le32 0) (sioChecksum (le32 0))]) := by
      have length : (acked .base64EncodeLength s).base64Buffer.length = 0 := by
        rw [show (acked .base64EncodeLength s).base64Buffer = [] from empty]
        rfl
      rw [handle, sioBase64EncodeLength, length]
      exact (sends_busToComputer _ true).trans (sends_busToComputer _ false)
    rw [conforms_iff_wellFormed known _ sends]
    exact fun no => nomatch no
  · refine iff_of_true (conforms_of_returns known rfl ?_) empty
    have length : ¬ (acked .base64EncodeLength s).base64Buffer.length = 0 := by
      rw [List.length_eq_zero_iff]
      exact empty
    rw [handle, sioBase64EncodeLength, if_neg length]
    exact returns_busToComputer (by rfl) false

theorem returns_giveOutput {l : Nat} (fits : l ≤ s.base64Buffer.length) :
    Returns l s (s.giveOutput l) := by
  refine ⟨false, s.base64Buffer.take l, ?_, ?_⟩
  · rw [List.length_take]
    exact Nat.min_eq_left fits
  · exact sends_busToComputer _ false

/-- `refuse` is what is done where nothing can be returned. -/
theorem conforms_output_iff (known : FujiCommand.ofCode frame.comnd = some c)
    (some : c.returns frame s = some (u16 frame.aux1 frame.aux2)) (refuse : SioFuji → SioFuji)
    (refuses : Conforms around frame s → handle around frame c (acked c s) ≠ refuse (acked c s))
    (handler : handle around frame c (acked c s) =
      if u16 frame.aux1 frame.aux2 = 0 then refuse (acked c s)
      else if u16 frame.aux1 frame.aux2 > s.base64Buffer.length then refuse (acked c s)
      else if ¬ around.mallocSucceeds then refuse (acked c s)
      else (acked c s).giveOutput (u16 frame.aux1 frame.aux2)) :
    Conforms around frame s ↔ u16 frame.aux1 frame.aux2 ≠ 0 ∧
      u16 frame.aux1 frame.aux2 ≤ s.base64Buffer.length ∧ around.mallocSucceeds = true := by
  constructor
  · intro conforms
    have refuses := refuses conforms
    by_cases empty : u16 frame.aux1 frame.aux2 = 0
    · exact absurd (handler.trans (if_pos empty)) refuses
    · replace handler := handler.trans (if_neg empty)
      by_cases long : u16 frame.aux1 frame.aux2 > s.base64Buffer.length
      · exact absurd (handler.trans (if_pos long)) refuses
      · replace handler := handler.trans (if_neg long)
        by_cases malloc : around.mallocSucceeds = true
        · exact ⟨empty, Nat.not_lt.mp long, malloc⟩
        · exact absurd (handler.trans (if_pos malloc)) refuses
  · intro ⟨nonempty, fits, malloc⟩
    refine conforms_of_returns known some ?_
    rw [handler, if_neg nonempty, if_neg (Nat.not_lt.mpr fits), if_neg (not_not.mpr malloc)]
    exact returns_giveOutput fits

/-- An entry has the length of the frame, a block the number of pages. -/
theorem conforms_readDirEntry_iff (known : FujiCommand.ofCode frame.comnd = some .readDirEntry) :
    Conforms around frame s ↔ FujiCommand.readDirEntry.Regular around frame s := by
  rw [FujiCommand.Regular]
  have decide {n : Nat} (some : FujiCommand.readDirEntry.returns frame s = some n)
      (bytes : List UInt8) (handler : handle around frame .readDirEntry (acked .readDirEntry s) =
        (acked .readDirEntry s).readDirectory n bytes) :
      Conforms around frame s ↔
        ∃ slot, s.currentOpenDirectorySlot = .some slot ∧ (s.hosts slot).val.Ready := by
    rw [readDirectory, directory_acked] at handler
    cases current : s.currentOpenDirectorySlot with
    | none =>
      rw [current] at handler
      refine iff_of_false (not_conforms_of_ends known some (handler ▸ ends_sioError rfl)) ?_
      rintro ⟨slot, open', -⟩
      cases open'
    | some slot =>
      rw [current] at handler
      have ready := (s.hosts slot).property.dirNextfile_iff
      cases next : (s.hosts slot).val.dirNextfile with
      | error fault =>
        dsimp only at handler
        rw [show (acked .readDirEntry s).hosts slot = s.hosts slot from rfl, next] at handler
        rw [next] at ready
        refine iff_of_false (not_conforms_of_fault known handler) ?_
        rintro ⟨slot', open', ready'⟩
        obtain rfl := Option.some.inj open'
        obtain ⟨answer, done⟩ := ready.mpr ready'
        cases done
      | ok answer =>
        dsimp only at handler
        rw [show (acked .readDirEntry s).hosts slot = s.hosts slot from rfl, next] at handler
        refine iff_of_true (conforms_of_returns known some ?_) ⟨slot, rfl, ready.mp ⟨answer, next⟩⟩
        rw [handler]
        exact returns_busToComputer (length_zeroed _ _) _
  by_cases block : frame.aux2 &&& 0xC0 = 0xC0
  · refine decide (if_pos block) around.directoryBlock ?_
    rw [handle, sioReadDirectoryEntry, if_pos block]
    rfl
  · refine decide (if_neg block) around.directoryEntry ?_
    rw [handle, sioReadDirectoryEntry, if_neg block]

/-- An image that opens is mounted. -/
theorem conforms_mountImage_iff (known : FujiCommand.ofCode frame.comnd = some .mountImage) :
    Conforms around frame s ↔ FujiCommand.mountImage.Regular around frame s := by
  have conforms := @conforms_of_ends around frame s .mountImage known rfl
  have stuck := @not_conforms_of_fault around frame s .mountImage known
  rw [FujiCommand.Regular]
  rw [handle, sioDiskImageMount] at conforms stuck
  by_cases inside : frame.aux1.toNat < MAX_DISK_DEVICES
  · rw [dif_pos inside] at conforms stuck
    rw [forall_prop_of_true inside]
    by_cases host : (s.hostSlots ⟨frame.aux1.toNat, inside⟩).toNat < MAX_HOSTS
    · rw [if_pos (show ((acked .mountImage s).hostSlots _).toNat < _ from host)] at conforms stuck
      rw [forall_prop_of_true host]
      by_cases opens : around.imageOpens frame.aux1.toNat = true
      · rw [if_pos opens] at conforms stuck
        rw [forall_prop_of_true opens]
        by_cases mounts : around.imageMounts frame.aux1.toNat = true
        · rw [if_pos mounts] at conforms
          exact iff_of_true (conforms (ends_sioComplete rfl)) mounts
        · rw [if_neg mounts] at stuck
          exact iff_of_false (stuck rfl) mounts
      · rw [if_neg opens] at conforms
        exact iff_of_true (conforms (ends_sioError rfl)) fun opens' => absurd opens' opens
    · rw [if_neg (show ¬ ((acked .mountImage s).hostSlots _).toNat < _ from host)] at conforms
      exact iff_of_true (conforms (ends_sioError rfl)) fun host' => absurd host' host
  · rw [dif_neg inside] at conforms
    exact iff_of_true (conforms (ends_sioError rfl)) fun inside' => absurd inside' inside

/-- In hex there are two characters for each byte of the length that is announced. -/
theorem conforms_hashOutput_iff (known : FujiCommand.ofCode frame.comnd = some .hashOutput) :
    Conforms around frame s ↔ (u16 frame.aux1 frame.aux2 = 1 → hashSize s.hashMode = 0) := by
  have returns : Returns (if u16 frame.aux1 frame.aux2 = 1 then hashSize s.hashMode * 2
      else hashSize s.hashMode) (acked .hashOutput s)
      (handle around frame .hashOutput (acked .hashOutput s)) :=
    returns_busToComputer (length_zeroed _ _) _
  by_cases same : (if u16 frame.aux1 frame.aux2 = 1 then hashSize s.hashMode * 2
      else hashSize s.hashMode) = hashSize s.hashMode
  · rw [same] at returns
    refine iff_of_true (conforms_of_returns known rfl returns) fun hex => ?_
    rw [if_pos hex] at same
    omega
  · obtain ⟨err, bytes, length, sends⟩ := returns
    refine iff_of_false ?_ fun regular => same ?_
    · rw [conforms_iff_wellFormed known _ sends]
      have differs : some (hashSize s.hashMode) ≠ some bytes.length := by
        rw [length]
        exact fun no => same (Option.some.inj no).symm
      cases err <;> exact fun wellFormed => differs wellFormed.1
    · split
      · next hex => rw [regular hex]
      · rfl

theorem conforms_mountAll_iff (known : FujiCommand.ofCode frame.comnd = some .mountAll) :
    Conforms around frame s ↔ FujiCommand.mountAll.Regular around frame s := by
  have alike := alike_of_same around s (acked .mountAll s) (mountAt_congr rfl) rfl
  have cases := mountAll_cases around (acked .mountAll s)
  rw [forall_congr' fun i => imp_congr (forall₂_congr fun j _ => (alike j).1) (alike i).2] at cases
  rcases cases with ⟨returns, ended⟩ | ⟨stuck, fault⟩
  · exact iff_of_true (conforms_of_ends known rfl ended) returns
  · exact iff_of_false (not_conforms_of_fault known fault) stuck

theorem conforms_setBootMode_iff (known : FujiCommand.ofCode frame.comnd = some .setBootMode) :
    Conforms around frame s ↔ FujiCommand.setBootMode.Regular around frame s := by
  by_cases stuck : frame.aux1 ≤ 1 ∧ ¬ around.bootImageMounts
  · exact iff_of_false (not_conforms_of_fault known (if_pos stuck)) fun mounts => stuck.2 (mounts stuck.1)
  · refine iff_of_true (conforms_of_ends known rfl ?_) fun disk => not_not.mp fun no => stuck ⟨disk, no⟩
    rw [handle, sioSetBootMode, if_neg stuck]
    exact ends_sioComplete rfl

/-- Without memory for the frame it is not received. -/
theorem conforms_copyFile_iff (known : FujiCommand.ofCode frame.comnd = some .copyFile) :
    Conforms around frame s ↔ FujiCommand.copyFile.Regular around frame s := by
  by_cases malloc : around.mallocSucceeds = true
  · rw [FujiCommand.Regular, forall_prop_of_true malloc]
    refine conforms_iff_of_withFrame known rfl (if_neg (not_not.mpr malloc)) fun _ _ => ?_
    have sent (s : SioFuji) : ((s.mountAt around (frame.aux1 - 1)).2.mountAt around
        (frame.aux2 - 1)).2.bus.sent = s.bus.sent := by rw [mountAt_bus, mountAt_bus]
    exact ends_ite (ends_sioError rfl) (ends_ite (ends_sioError rfl) (ends_ite (ends_sioError rfl)
      (ends_ite (ends_sioError (sent _)) (ends_ite (ends_sioError (sent _))
        (ends_ite (ends_sioError (sent _)) (ends_sioComplete (sent _)))))))
  · refine iff_of_true (conforms_of_ends known rfl ?_) fun yes => absurd yes malloc
    rw [handle, SioFuji.sioCopyFile, if_pos malloc]
    exact ends_sioError rfl

theorem conforms_getDirectoryPosition_iff
    (known : FujiCommand.ofCode frame.comnd = some .getDirectoryPosition) :
    Conforms around frame s ↔ FujiCommand.getDirectoryPosition.Regular around frame s := by
  by_cases closed : s.currentOpenDirectorySlot = none
  · refine iff_of_false (not_conforms_of_ends known rfl ?_) fun regular => regular.1 closed
    rw [handle, sioGetDirectoryPosition, directory_acked, if_pos closed]
    exact ends_sioError rfl
  · by_cases invalid : around.dirTell = FNFS_INVALID_DIRPOS
    · refine iff_of_false (not_conforms_of_ends known rfl ?_) fun regular => regular.2 invalid
      rw [handle, sioGetDirectoryPosition, directory_acked, if_neg closed, if_pos invalid]
      exact ends_sioError rfl
    · refine iff_of_true (conforms_of_returns known rfl ?_) ⟨closed, invalid⟩
      rw [handle, sioGetDirectoryPosition, directory_acked, if_neg closed, if_neg invalid]
      exact returns_busToComputer (by rfl) _

theorem conforms_readDeviceSlots_iff
    (known : FujiCommand.ofCode frame.comnd = some .readDeviceSlots) :
    Conforms around frame s ↔ FujiCommand.readDeviceSlots.Regular around frame s := by
  by_cases disks : frame.aux1 = READ_DEVICE_SLOTS_DISKS1
  · refine iff_of_true (conforms_of_returns known rfl ?_) disks
    rw [handle, sioReadDeviceSlots, if_pos disks]
    exact returns_busToComputer
      (by simp [List.length_flatMap, MAX_DISPLAY_FILENAME_LEN, MAX_DISK_DEVICES]) _
  · refine iff_of_false (not_conforms_of_ends known rfl ?_) disks
    rw [handle, sioReadDeviceSlots, if_neg disks]
    exact ends_sioError rfl

theorem conforms_getHostPrefix_iff (known : FujiCommand.ofCode frame.comnd = some .getHostPrefix) :
    Conforms around frame s ↔ FujiCommand.getHostPrefix.Regular around frame s := by
  by_cases host : frame.aux1.toNat < MAX_HOSTS
  · refine iff_of_true (conforms_of_returns known rfl ?_) host
    rw [handle, sioGetHostPrefix, if_pos host]
    exact returns_busToComputer (length_zeroed _ _) _
  · refine iff_of_false (not_conforms_of_ends known rfl ?_) host
    rw [handle, sioGetHostPrefix, if_neg host]
    exact ends_sioError rfl

/-- The command of the frame, if there is one, is regular. -/
def Regular (around : Surroundings) (frame : CmdFrame) (s : SioFuji) : Prop :=
  ∀ c, FujiCommand.ofCode frame.comnd = some c → c.Regular around frame s

theorem regular_iff (known : FujiCommand.ofCode frame.comnd = some c) :
    Regular around frame s ↔ c.Regular around frame s :=
  ⟨fun regular => regular c known, fun regular _ known' =>
    Option.some.inj (known.symm.trans known') ▸ regular⟩

theorem conforms_command_iff (known : FujiCommand.ofCode frame.comnd = some c) :
    Conforms around frame s ↔ c.Regular around frame s := by
  have ends (none : c.returns frame s = none) (regular : c.Regular around frame s)
      (ends : Ends (acked c s) (handle around frame c (acked c s))) :
      Conforms around frame s ↔ c.Regular around frame s :=
    iff_of_true (conforms_of_ends known none ends) regular
  have returns {n : Nat} (some : c.returns frame s = some n) (regular : c.Regular around frame s)
      (returns : Returns n (acked c s) (handle around frame c (acked c s))) :
      Conforms around frame s ↔ c.Regular around frame s :=
    iff_of_true (conforms_of_returns known some returns) regular
  cases c with
  | hsioIndex => exact returns rfl trivial (returns_busToComputer (by rfl) _)
  | setHsioIndex =>
    exact ends rfl trivial (ends_ite (ends_sioError rfl) (ends_sioComplete rfl))
  | status => exact returns rfl trivial (returns_busToComputer (by rfl) _)
  | reset => exact ends rfl trivial (ends_sioComplete rfl)
  | scanNetworks => exact returns rfl trivial (returns_busToComputer (by rfl) _)
  | mountHost => exact ends rfl trivial ends_sioMountHost
  | mountImage => exact conforms_mountImage_iff known
  | closeDirectory => exact ends rfl trivial (ends_sioComplete rfl)
  | setDirectoryPosition =>
    exact ends rfl trivial (ends_ite (ends_sioError rfl) (ends_ite (ends_sioError rfl)
      (ends_sioComplete rfl)))
  | unmountImage =>
    exact ends rfl trivial (ends_dite (fun _ => ends_sioComplete rfl) fun _ => ends_sioError rfl)
  | unmountHost =>
    refine ends rfl trivial ?_
    rw [handle]
    exact ends_sioUnmountHost
  | mountAll => exact conforms_mountAll_iff known
  | base64EncodeCompute => exact ends rfl trivial (ends_compute _)
  | base64DecodeCompute => exact ends rfl trivial (ends_compute _)
  | hashCompute => exact ends rfl trivial ends_sioHashCompute
  | setSioExternalClock => exact ends rfl trivial (ends_sioComplete rfl)
  | closeAppkey => exact ends rfl trivial (ends_sioComplete rfl)
  | configBoot => exact ends rfl trivial (ends_sioComplete rfl)
  | setBootMode => exact conforms_setBootMode_iff known
  | getScanResult =>
    refine returns rfl trivial ?_
    rw [handle, sioNetScanResult]
    split <;> exact returns_busToComputer (length_zeroed _ _) _
  | getSsid => exact returns rfl trivial (returns_busToComputer (by simp; rfl) _)
  | getWifistatus => exact returns rfl trivial (returns_busToComputer (by rfl) _)
  | getWifiEnabled => exact returns rfl trivial (returns_busToComputer (by rfl) _)
  | readHostSlots => exact returns rfl trivial returns_sioReadHostSlots
  | readAppkey => exact returns rfl trivial returns_sioReadAppKey
  | getDeviceFullpath => exact returns rfl trivial (returns_busToComputer (length_zeroed _ _) _)
  | base64DecodeLength =>
    refine returns rfl trivial ?_
    rw [handle, sioBase64DecodeLength]
    split <;> exact returns_busToComputer (by rfl) _
  | hashLength => exact returns rfl trivial (returns_busToComputer (by rfl) _)
  | getAdapterconfig =>
    by_cases extended : frame.aux1 = 1
    · refine returns (if_pos extended) trivial ?_
      rw [handle, sioGetAdapterConfig, if_pos extended]
      exact returns_busToComputer (length_zeroed _ _) _
    · refine returns (if_neg extended) trivial ?_
      rw [handle, sioGetAdapterConfig, if_neg extended]
      exact returns_busToComputer (length_zeroed _ _) _
  | setSsid =>
    refine conforms_iff_of_withFrame known rfl (by rw [handle, SioFuji.sioNetSetSsid]) fun _ _ => ?_
    exact ends_ite (ends_sioError rfl) (ends_sioComplete rfl)
  | writeHostSlots => exact conforms_writeHostSlots_iff known
  | writeDeviceSlots =>
    refine conforms_iff_of_withFrame known rfl (by rw [handle, sioWriteDeviceSlots]) fun _ _ => ?_
    exact ends_sioComplete rfl
  | enableUdpstream => exact conforms_iff_of_withFrame known rfl rfl fun _ _ => ends_sioComplete rfl
  | openDirectory =>
    refine conforms_iff_of_withFrame known rfl (by rw [handle, sioOpenDirectory]) fun _ _ => ?_
    exact ends_dite (fun _ => ends_ite (ends_sioComplete rfl) (ends_sioError rfl))
      fun _ => ends_sioError rfl
  | newDisk =>
    refine conforms_iff_of_withFrame known rfl (by rw [handle, sioNewDisk]) fun _ _ => ?_
    exact ends_dite (fun _ => ends_ite (ends_sioError rfl) (ends_ite (ends_sioError rfl)
      (ends_ite (ends_sioError rfl) (ends_sioComplete rfl)))) fun _ => ends_sioError rfl
  | setDeviceFullpath =>
    refine conforms_iff_of_withFrame known rfl (by rw [handle, sioSetDeviceFilename]) fun _ _ => ?_
    exact ends_dite (fun _ => ends_sioComplete rfl) fun _ => ends_sioError rfl
  | setHostPrefix =>
    refine conforms_iff_of_withFrame known rfl (by rw [handle, sioSetHostPrefix]) fun _ _ => ?_
    exact ends_ite (ends_sioComplete rfl) (ends_sioError rfl)
  | openAppkey => exact conforms_openAppkey_iff known
  | writeAppkey => exact conforms_writeAppkey_iff known
  | base64EncodeInput => exact conforms_takeInput_iff known rfl rfl
  | base64DecodeInput => exact conforms_takeInput_iff known rfl rfl
  | hashInput => exact conforms_takeInput_iff known rfl rfl
  | base64EncodeLength => exact conforms_encodeLength_iff known
  | copyFile => exact conforms_copyFile_iff known
  | base64EncodeOutput =>
    -- Where it refuses, the acknowledge is all.
    exact conforms_output_iff known rfl id (fun conforms refused =>
      not_conforms_of_fault known refused conforms) rfl
  | base64DecodeOutput =>
    refine conforms_output_iff known rfl sioError (fun conforms refused => ?_) rfl
    exact not_conforms_of_ends known rfl (refused ▸ ends_sioError rfl) conforms
  | hashOutput => exact conforms_hashOutput_iff known
  | readDirEntry => exact conforms_readDirEntry_iff known
  | getDirectoryPosition => exact conforms_getDirectoryPosition_iff known
  | readDeviceSlots => exact conforms_readDeviceSlots_iff known
  | getHostPrefix => exact conforms_getHostPrefix_iff known

/-- Surroundings in which nothing works. -/
def outage : Surroundings where
  incoming := ⟨[], 0⟩
  uninitialised _ := 0
  mallocSucceeds := false
  scanNetworks := 0
  scanResult _ := []
  wifiSsid := []
  wifiPassphrase := []
  testConnect _ := -1
  wifiConnected := false
  wifiEnabled := false
  adapterConfig := []
  adapterConfigExtended := []
  hostPrefix _ := []
  outside := ⟨fun _ _ => false, false⟩
  imageOpens _ := false
  imageMounts _ := false
  bootImageMounts := false
  diskFilename _ := []
  diskBasename _ := []
  fileExists := false
  newDiskOpens := false
  newDiskWritten := false
  sourceOpens := false
  destOpens := false
  copyFails := true
  dirOpens := false
  directoryEntry := []
  directoryBlock := []
  dirTell := FNFS_INVALID_DIRPOS
  dirSeek := false
  sdRunning := false
  keyOpens := false
  keyRead := []
  keyWritten _ := 0
  base64Encode _ := none
  base64Decode _ := none
  sha1 _ := []
  sha256 _ := []
  sha512 _ := []

/-- The device after a reset. -/
def idle : SioFuji where
  hosts _ := ⟨{}, FujiHost.intact_new⟩
  hostSlots _ := Slots.INVALID_HOST_SLOT
  accessModes _ := Slots.DISK_ACCESS_MODE_READ
  md5Output := []
  sha1Output := []
  sha256Output := []
  sha512Output := []
  bus := { sioBaudHigh := 68837, sioBaudUltraHigh := 68837, highSpeedIndex := some 6 }

end FujiNet.Fuji.Commands
