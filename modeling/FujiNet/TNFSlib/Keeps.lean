import FujiNet.TNFSlib.File

/-!
# What transactions leave alone

A transaction numbers its request, and when the server reports an expired session it mounts
anew. What holds of the mount whatever these do to it still holds after a transaction,
whatever the network does.
-/

namespace FujiNet.TNFS

/-- The steps of a transaction preserve this about the mount. -/
structure Untouched (P : MountInfo → Prop) : Prop where
  session {m : MountInfo} (n : Nat) : P m → P { m with session := n }
  sequence {m : MountInfo} (n : UInt8) : P m → P { m with currentSequenceNum := n }
  prepareMount {m : MountInfo} : P m → P m.prepareMount
  mounted {m : MountInfo} (packet : Packet) : P m → P (m.mounted packet)

/-- A transaction function that preserves this about the mount. -/
def Preserves {ν : Type} (P : MountInfo → Prop) (tx : Transact ν) : Prop :=
  ∀ {pkt size c reply c'}, tx pkt size c = some (reply, c') → P c.mInfo → P c'.mInfo

section

variable {ν : Type} {P : MountInfo → Prop} {tx : Transact ν} {c c' : Client ν}

theorem Preserves.tnfsUmount (keeps : Preserves P tx) (untouched : Untouched P) {result : Int}
    (h : tnfsUmount tx c = some (result, c')) (holds : P c.mInfo) : P c'.mInfo := by
  simp only [TNFS.tnfsUmount, Option.bind_eq_bind, Option.bind_eq_some_iff, Prod.exists] at h
  obtain ⟨reply, c₁, htx, h⟩ := h
  have holds := keeps htx holds
  cases reply with
  | none =>
      simp only [Option.some.injEq, Prod.mk.injEq] at h
      rwa [← h.2]
  | some packet =>
      simp only at h
      split_ifs at h <;> simp only [Option.some.injEq, Prod.mk.injEq] at h <;> rw [← h.2]
      · exact untouched.session _ holds
      · exact holds

theorem Preserves.tnfsMount (keeps : Preserves P tx) (untouched : Untouched P) {result : Int}
    (h : tnfsMount tx c = some (result, c')) (holds : P c.mInfo) : P c'.mInfo := by
  simp only [TNFS.tnfsMount, Option.bind_eq_bind] at h
  -- the old session, if there is one, is given up first
  have unmounted : ∀ c₁, (if c.mInfo.session = invalidSession then some c
      else (TNFS.tnfsUmount tx c).map Prod.snd) = some c₁ → P c₁.mInfo := by
    intro c₁ first
    split_ifs at first
    · rwa [← Option.some.inj first]
    · simp only [Option.map_eq_some_iff, Prod.exists] at first
      obtain ⟨_, _, hunmount, rfl⟩ := first
      exact keeps.tnfsUmount untouched hunmount holds
  split_ifs at h unmounted
  all_goals
    simp only [Option.bind_eq_some_iff, Prod.exists] at h
    obtain ⟨c₁, first, reply, c₂, htx, h⟩ := h
    have mounting : P c₂.mInfo := keeps htx (untouched.prepareMount (unmounted c₁ first))
    cases reply with
    | none =>
        simp only [Option.some.injEq, Prod.mk.injEq] at h
        rwa [← h.2]
    | some packet =>
        simp only at h
        have taken := untouched.mounted packet mounting
        split_ifs at h
        · simp only [Option.bind_eq_some_iff, Prod.exists, Option.some.injEq, Prod.mk.injEq] at h
          obtain ⟨_, _, hunmount, -, rfl⟩ := h
          exact keeps.tnfsUmount untouched hunmount taken
        · simp only [Option.some.injEq, Prod.mk.injEq] at h
          rwa [← h.2]
        · simp only [Option.some.injEq, Prod.mk.injEq] at h
          rwa [← h.2]

theorem Preserves.sessionRecovery (keeps : Preserves P tx) (untouched : Untouched P)
    {command result : UInt8} (h : sessionRecovery tx command c = some (result, c'))
    (holds : P c.mInfo) : P c'.mInfo := by
  simp only [TNFS.sessionRecovery, Option.bind_eq_bind, Option.bind_eq_some_iff, Prod.exists] at h
  obtain ⟨code, c₁, hmount, h⟩ := h
  have mounted := keeps.tnfsMount untouched hmount (untouched.session _ holds)
  split_ifs at h <;> simp only [Option.some.injEq, Prod.mk.injEq] at h <;> rwa [← h.2]

/-- One attempt to get a reply. -/
theorem Preserves.attempt {net : Net ν} {payload0 : UInt8} {size : Nat} {a : Attempt ν}
    (keeps : Preserves P tx) (untouched : Untouched P)
    {next : Attempt ν ⊕ (Option Packet × Client ν)}
    (h : attempt net (TNFS.sessionRecovery tx) payload0 size a = some next)
    (holds : P a.client.mInfo) : P (next.elim Attempt.client Prod.snd).mInfo := by
  simp only [TNFS.attempt] at h
  split_ifs at h
  · split at h
    · rw [← Option.some.inj h]
      exact holds
    · split at h
      case h_4 =>
        simp only [Option.bind_eq_bind, Option.bind_eq_some_iff, Prod.exists] at h
        obtain ⟨result, c₁, recovered, h⟩ := h
        have recovered := keeps.sessionRecovery untouched recovered holds
        split_ifs at h <;> rw [← Option.some.inj h] <;> exact recovered
      all_goals
        rw [← Option.some.inj h]
        exact holds
  · rw [← Option.some.inj h]
    exact holds

/-- Transactions preserve what their steps do. -/
theorem Untouched.transaction (untouched : Untouched P) (net : Net ν) (fuel : Nat) :
    Preserves P (transaction net fuel) := by
  induction fuel with
  | zero =>
      intro pkt size c reply c' h
      simp [TNFS.transaction] at h
  | succ fuel ih =>
      intro pkt size c reply c' h holds
      refine Loop.run_post (fun a : Attempt ν => P a.client.mInfo) (fun b => P b.2.mInfo) h
        (untouched.sequence _ holds) ?_ ?_
      · intro a b holds pass
        exact ih.attempt untouched pass holds
      · intro a b holds pass
        exact ih.attempt untouched pass holds

theorem Preserves.tnfsStat (keeps : Preserves P tx) {filepath : List UInt8}
    {answer : Int × Option Stat} (h : tnfsStat tx filepath c = some (answer, c'))
    (holds : P c.mInfo) : P c'.mInfo := by
  simp only [TNFS.tnfsStat, Option.bind_eq_bind, Option.bind_eq_some_iff, Prod.exists] at h
  obtain ⟨reply, c₁, htx, h⟩ := h
  have holds := keeps htx holds
  cases reply with
  | none => rwa [← (Prod.mk.inj (Option.some.inj h)).2]
  | some packet => rwa [← (Prod.mk.inj (Option.some.inj h)).2]

end

end FujiNet.TNFS
