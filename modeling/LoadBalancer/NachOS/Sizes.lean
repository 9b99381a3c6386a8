/-
The sizes that `AddrSpace(OpenFile *)` computes, against the exact ones.

The sizes of the segments are `int`s; their sums are taken as `unsigned`s, modulo `2^32`, and go
through `divRoundUp`, which takes an `int`, into `numPages`, an `unsigned` again. The one
assertion on them, `numPages <= NumPhysPages`, is about the number that is left after all this.

With sizes that are not negative the whole sum decides ([`sizesFit_of_nonneg`]): when it is not
larger than the memory nothing wraps. [`sizesHold_iff`] is the condition for all headers.
-/
import LoadBalancer.NachOS.AddrSpace

set_option autoImplicit false

namespace LoadBalancer.NachOS

namespace NoffHeader

/-- The value of a field of type `int`. -/
def IsInt (z : ℤ) : Prop := -2147483648 ≤ z ∧ z < 2147483648

instance (z : ℤ) : Decidable (IsInt z) := inferInstanceAs (Decidable (_ ∧ _))

/-- The sizes are `int`s. -/
def IntSizes (noffH : NoffHeader) : Prop :=
  IsInt noffH.code.size ∧ IsInt noffH.initData.size ∧ IsInt noffH.uninitData.size

instance (noffH : NoffHeader) : Decidable noffH.IntSizes := inferInstanceAs (Decidable (_ ∧ _ ∧ _))

/-- The header passes the assertions of the constructor. -/
def Asserted (noffH : NoffHeader) : Prop :=
  noffH.noffMagic = NOFFMAGIC ∧ noffH.numPages ≤ NumPhysPages

instance (noffH : NoffHeader) : Decidable noffH.Asserted := inferInstanceAs (Decidable (_ ∧ _))

/-- The exact size of code and initialised data. -/
def exactCopyable (noffH : NoffHeader) : ℤ := noffH.code.size + noffH.initData.size

/-- The exact size of the whole program, with its stack. -/
def exactReal (noffH : NoffHeader) : ℤ :=
  noffH.code.size + noffH.initData.size + noffH.uninitData.size + UserStackSize

/-- The sizes that are computed have a defined value, the copyable pages are among the pages, so
that both loops over pages stay inside the page table, and the pages hold the whole program. -/
structure SizesHold (noffH : NoffHeader) : Prop where
  defined : noffH.SumDefined
  copyable : noffH.numPagesCopyable ≤ noffH.numPages
  real : noffH.exactReal ≤ noffH.numPages * PageSize

/-- The exact sizes: that of code and initialised data is less than a page below zero, if it is
negative, and takes no more pages than the whole; and the whole is not larger than the memory. -/
structure SizesFit (noffH : NoffHeader) : Prop where
  low : -PageSize < noffH.exactCopyable
  ordered : noffH.exactCopyable ≤ ((noffH.exactReal.toNat + (PageSize - 1)) / PageSize * PageSize : ℕ)
  real : noffH.exactReal ≤ (NumPhysPages * PageSize : ℕ)

variable {noffH : NoffHeader}

/-- The argument of the first `divRoundUp` is the exact size. -/
theorem toSigned_size_copyable (h : noffH.SumDefined) :
    toSigned noffH.size_copyable = noffH.exactCopyable :=
  toSigned_toUnsigned h.1 h.2

/-- The sums of `unsigned`s are the exact one, modulo `2^32`. -/
theorem size_real_eq (noffH : NoffHeader) : noffH.size_real = toUnsigned noffH.exactReal := by
  unfold size_real size_copyable exactReal toUnsigned
  omega

/-- The argument of the second `divRoundUp` is exact if that is an `int`. -/
theorem toSigned_size_real (h : IsInt noffH.exactReal) :
    toSigned noffH.size_real = noffH.exactReal := by
  rw [size_real_eq, toSigned_toUnsigned h.1 h.2]

/-- **The pages of exact sizes.** -/
theorem SizesFit.pages (h : noffH.SizesFit) (hreal : -PageSize < noffH.exactReal) :
    noffH.SumDefined
      ∧ noffH.numPagesCopyable = (noffH.exactCopyable.toNat + (PageSize - 1)) / PageSize
      ∧ noffH.numPages = (noffH.exactReal.toNat + (PageSize - 1)) / PageSize := by
  obtain ⟨hlow, hordered, hhigh⟩ := h
  have hsize : PageSize = 4096 := rfl
  have hpages : NumPhysPages = 1024 := rfl
  rw [hsize] at hlow hreal
  rw [hsize, hpages] at hhigh
  rw [hsize] at hordered
  have hdefined : noffH.SumDefined := by
    unfold SumDefined
    unfold exactCopyable at hlow hordered
    omega
  refine ⟨hdefined, ?_, ?_⟩
  · rw [numPagesCopyable, toSigned_size_copyable hdefined]
    exact pages_of_mem (by rwa [hsize]) (by omega)
  · rw [numPages, toSigned_size_real ⟨by omega, by omega⟩]
    exact pages_of_mem (by rwa [hsize]) (by omega)

/-- **What the assertion says of the exact size**, unless a sum has gone round. -/
theorem exactReal_of_asserted (h : noffH.Asserted) (hlow : -2147487744 ≤ noffH.exactReal)
    (hhigh : noffH.exactReal < 2147483648) :
    -PageSize < noffH.exactReal ∧ noffH.exactReal ≤ (NumPhysPages * PageSize : ℕ) := by
  have hsize : PageSize = 4096 := rfl
  have hpages : NumPhysPages = 1024 := rfl
  have haccepted := h.2
  obtain ⟨hmin, hmax⟩ := toSigned_bounds (toUnsigned_lt noffH.exactReal)
  rw [numPages, size_real_eq, pages_le_iff hmin hmax, hsize, hpages] at haccepted
  rw [hsize, hpages]
  unfold toSigned toUnsigned at haccepted
  split_ifs at haccepted <;> omega

/-- **When the sizes are right.** For every header that passes the assertions of the
constructor. The one assertion is about the number that is left when the sums have wrapped. -/
theorem sizesHold_iff (hint : noffH.IntSizes) (hassert : noffH.Asserted) :
    noffH.SizesHold ↔ noffH.SizesFit := by
  have hsize : PageSize = 4096 := rfl
  have hpages : NumPhysPages = 1024 := rfl
  have hstack : UserStackSize = 1024 := rfl
  have hsum : noffH.exactReal = noffH.exactCopyable + noffH.uninitData.size + UserStackSize := rfl
  obtain ⟨-, -, huninit⟩ := hint
  obtain ⟨hulow, huhigh⟩ := huninit
  have haccepted := hassert.2
  constructor
  · rintro ⟨hdefined, hcopyable, hreal⟩
    have hc : IsInt noffH.exactCopyable := hdefined
    have hcaccepted := hcopyable.trans haccepted
    rw [numPagesCopyable, toSigned_size_copyable hdefined, pages_le_iff hc.1 hc.2] at hcaccepted
    have htop : noffH.exactReal ≤ (NumPhysPages * PageSize : ℕ) :=
      hreal.trans (by exact_mod_cast Nat.mul_le_mul_right PageSize haccepted)
    rw [hsize, hpages] at hcaccepted htop
    obtain ⟨hlow, hhigh⟩ := exactReal_of_asserted hassert (by omega) (by omega)
    rw [hsize] at hlow
    rw [numPagesCopyable, numPages, toSigned_size_copyable hdefined,
      toSigned_size_real ⟨by omega, by omega⟩, pages_of_mem (by rw [hsize]; omega) hc.2,
      pages_of_mem (by rwa [hsize]) (by omega), hsize] at hcopyable
    refine ⟨by rw [hsize]; exact hcaccepted.1, ?_, hhigh⟩
    rw [hsize]
    omega
  · intro hfit
    have hlow := hfit.low
    have hhigh := hfit.real
    rw [hsize] at hlow
    rw [hsize, hpages] at hhigh
    obtain ⟨hrlow, -⟩ := exactReal_of_asserted hassert (by omega) (by omega)
    obtain ⟨hdefined, hcopyable, hreal⟩ := hfit.pages hrlow
    have hordered := hfit.ordered
    refine ⟨hdefined, ?_, ?_⟩
    · rw [hcopyable, hreal]
      rw [hsize] at hordered ⊢
      omega
    · rw [hreal, hsize]
      omega

/-- With sizes that are not negative, the sizes are right exactly when the whole is not larger
than the memory. -/
theorem sizesFit_of_nonneg (hcode : 0 ≤ noffH.code.size) (hinit : 0 ≤ noffH.initData.size)
    (huninit : 0 ≤ noffH.uninitData.size) :
    noffH.SizesFit ↔ noffH.exactReal ≤ (NumPhysPages * PageSize : ℕ) := by
  have hsize : PageSize = 4096 := rfl
  have hstack : UserStackSize = 1024 := rfl
  refine ⟨fun h => h.real, fun h => ⟨?_, ?_, h⟩⟩
  · rw [hsize, exactCopyable]
    omega
  · rw [hsize]
    unfold exactCopyable exactReal
    omega

/-- A small program. -/
theorem sizesHold_small :
    let noffH : NoffHeader := ⟨NOFFMAGIC, ⟨0, 40, 4096⟩, ⟨4096, 4136, 12⟩, ⟨4108, 0, 200⟩⟩
    noffH.IntSizes ∧ noffH.Asserted ∧ noffH.SizesHold := by
  intro noffH
  have hint : noffH.IntSizes := by decide
  have hassert : noffH.Asserted := by decide
  have hfit : noffH.SizesFit :=
    (sizesFit_of_nonneg (by decide) (by decide) (by decide)).mpr (by decide)
  exact ⟨hint, hassert, (sizesHold_iff hint hassert).mpr hfit⟩

/-- **A program of four gigabytes that gets no page**: its sizes add up to `2^32`. -/
theorem not_sizesHold_of_wrap :
    ¬ ∀ noffH : NoffHeader, noffH.IntSizes → noffH.Asserted → noffH.SizesHold := by
  intro hall
  let noffH : NoffHeader :=
    ⟨NOFFMAGIC, ⟨0, 40, 2147483647⟩, ⟨0, 0, 0⟩, ⟨0, 0, 2147482625⟩⟩
  have hcopyable := (hall noffH (by decide) (by decide)).copyable
  exact absurd hcopyable (by decide)

end NoffHeader

end LoadBalancer.NachOS
