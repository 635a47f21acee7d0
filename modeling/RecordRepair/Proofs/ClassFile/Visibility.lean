import RecordRepair.ClassFile.Access

/-! # Restoring the visibility of a field

Making a field private changes the three bits for visibility and no others, so it keeps the bits
that tell whether a field backs a component, and doing it again changes nothing.

* `makePrivate_and_mask`: the new flags under any mask.
* `MadePrivate`: what the change comes to, bit by bit, and `madePrivate_makePrivate`. -/

namespace RecordRepair.AccessFlags

variable {flags mask : AccessFlags}

/-- The new flags under a mask: the old ones without a wider visibility, and the private bit. -/
theorem makePrivate_and_mask (flags mask : AccessFlags) : flags.makePrivate &&& mask =
    flags &&& (~~~(accPublic ||| accProtected) &&& mask) ||| accPrivate &&& mask := by
  have hd : (flags &&& ~~~(accPublic ||| accProtected) ||| accPrivate) &&& mask =
      flags &&& ~~~(accPublic ||| accProtected) &&& mask ||| accPrivate &&& mask :=
    UInt16.toBitVec_inj.1 BitVec.and_or_distrib_right
  rw [makePrivate, hd, UInt16.and_assoc]

/-- The bits for visibility play no part under a mask without them. -/
theorem makePrivate_and (hm : mask &&& ~~~(accPublic ||| accProtected) = mask)
    (hp : accPrivate &&& mask = 0) : flags.makePrivate &&& mask = flags &&& mask := by
  rw [makePrivate_and_mask, hp, UInt16.or_zero, UInt16.and_comm _ mask, hm]

theorem isFinalInstance_makePrivate :
    flags.makePrivate.isFinalInstance = flags.isFinalInstance := by
  have hf : flags.makePrivate &&& accFinal = flags &&& accFinal :=
    makePrivate_and (by decide) (by decide)
  have hs : flags.makePrivate &&& accStatic = flags &&& accStatic :=
    makePrivate_and (by decide) (by decide)
  rw [isFinalInstance, isFinalInstance, has, has, has, has, hf, hs]

theorem makePrivate_makePrivate : flags.makePrivate.makePrivate = flags.makePrivate := by
  have hp : accPrivate &&& ~~~(accPublic ||| accProtected) = accPrivate := by decide
  rw [makePrivate, makePrivate_and_mask, hp, UInt16.and_self, UInt16.or_assoc, UInt16.or_self,
    makePrivate]

/-! ### The three bits for visibility -/

/-- The new flags are private and no wider, and every other bit is as it was. -/
structure MadePrivate (before after : AccessFlags) : Prop where
  isPrivate : after.has accPrivate = true
  not_public : after.has accPublic = false
  not_protected : after.has accProtected = false
  others : after &&& ~~~(accPublic ||| accPrivate ||| accProtected) =
    before &&& ~~~(accPublic ||| accPrivate ||| accProtected)

/-- A wider visibility leaves no trace. -/
theorem has_makePrivate_eq_false (hm : ~~~(accPublic ||| accProtected) &&& mask = 0)
    (hp : accPrivate &&& mask = 0) (hne : mask ≠ 0) : flags.makePrivate.has mask = false := by
  rw [has, makePrivate_and_mask, hm, hp, UInt16.and_zero, UInt16.or_self]
  exact beq_false_of_ne hne.symm

theorem has_accPrivate_makePrivate : flags.makePrivate.has accPrivate = true := by
  have hm : ~~~(accPublic ||| accProtected) &&& accPrivate = accPrivate := by decide
  have habsorb : flags &&& accPrivate ||| accPrivate = accPrivate :=
    UInt16.toBitVec_inj.1 (by ext i; simp)
  rw [has, makePrivate_and_mask, hm, UInt16.and_self, habsorb, beq_self_eq_true]

theorem madePrivate_makePrivate (flags : AccessFlags) : MadePrivate flags flags.makePrivate where
  isPrivate := has_accPrivate_makePrivate
  not_public := has_makePrivate_eq_false (by decide) (by decide) (by decide)
  not_protected := has_makePrivate_eq_false (by decide) (by decide) (by decide)
  others := makePrivate_and (by decide) (by decide)

end RecordRepair.AccessFlags
