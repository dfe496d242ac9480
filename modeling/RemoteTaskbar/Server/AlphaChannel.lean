import RemoteTaskbar.Lib.ForLoop
import RemoteTaskbar.Server.IconUtil

/-!
# The alpha channel of an icon

`createAlphaChannelBitmapFromIcon` hands the colour pixels of an icon to GDI+ with
an alpha channel: the icon's own if a scan finds one, else one made from the mask.
The mask makes a pixel opaque or leaves it at 0, so a second pass either finds what
the first made, or finds nothing and has nothing to make (`alpha_reconstructed`).

An `int` is its 32 bits here: `&` and `|` with the unsigned constant convert it, and
the assignment converts back, which keeps the bits.
-/

namespace RemoteTaskbar

open Wire

/-! ## Pixels -/

section
variable (p : Word)

/-- The highest byte of a 32bppARGB pixel. -/
def alpha : Byte := p.extractLsb' 24 8

/-- The other 24 bits. -/
def rgb : BitVec 24 := p.extractLsb' 0 24

theorem alpha_append_rgb : alpha p ++ rgb p = p := @BitVec.extractLsb'_append_extractLsb' 8 24 p

theorem and_mask_eq_zero_iff : p &&& 0xff000000 = 0 ↔ alpha p = 0 := by
  have halpha : alpha (p &&& 0xff000000) = alpha p := by
    unfold alpha
    rw [BitVec.extractLsb'_and]
    exact BitVec.and_allOnes
  have hrgb : rgb (p &&& 0xff000000) = 0 := by
    unfold rgb
    rw [BitVec.extractLsb'_and]
    exact BitVec.and_zero
  constructor
  · intro h
    rw [← halpha, h]
    rfl
  · intro h
    rw [← alpha_append_rgb (p &&& 0xff000000), halpha, hrgb, h]
    rfl

@[simp] theorem alpha_or_mask : alpha (p ||| 0xff000000) = 0xff := by
  unfold alpha
  rw [BitVec.extractLsb'_or]
  exact BitVec.or_allOnes

@[simp] theorem rgb_or_mask : rgb (p ||| 0xff000000) = rgb p := by
  unfold rgb
  rw [BitVec.extractLsb'_or]
  exact BitVec.or_zero

end

/-! ## The bitmap for GDI+ -/

/-- What the OS answers about an icon: its size, and what `GetDIBits` stores in the two
arrays of `nBits` ints, one pixel each.  Any `nBits` is the size of an icon one pixel high. -/
structure IconBitmaps (nBits : Nat) where
  bmWidth : Nat
  bmHeight : Nat
  size : bmWidth * bmHeight = nBits
  colorBits : Vector Word nBits
  maskBits : Vector Word nBits

/-- The arguments of the GDI+ constructor; it keeps the pixels where they are. -/
structure Bitmap (nBits : Nat) where
  width : Nat
  height : Nat
  stride : Nat
  format : Word
  scan0 : Vector Word nBits
deriving DecidableEq

def PixelFormat32bppARGB : Word := 0x26200A

section
variable {nBits : Nat}

/-- The scan for an alpha channel. -/
def hasAlpha (colorBits : Vector Word nBits) : Bool :=
  ForLoop.run nBits
    (fun i hasAlpha => if colorBits.get i &&& 0xff000000 ≠ 0 then .done true else .yield hasAlpha) false

/-- Copy the mask alphas into the colour bits. -/
def applyMask (colorBits maskBits : Vector Word nBits) : Vector Word nBits :=
  ForLoop.run nBits
    (fun i colorBits =>
      .yield (if maskBits.get i = 0 then ForLoop.store colorBits i (colorBits.get i ||| 0xff000000)
        else colorBits))
    colorBits

def createAlphaChannelBitmapFromIcon (icon : IconBitmaps nBits) : Bitmap nBits :=
  let colorBits :=
    if !hasAlpha icon.colorBits then applyMask icon.colorBits icon.maskBits else icon.colorBits
  ⟨icon.bmWidth, icon.bmHeight, icon.bmWidth * 4, PixelFormat32bppARGB, colorBits⟩

/-! ## What the loops do -/

theorem hasAlpha_iff (colorBits : Vector Word nBits) :
    hasAlpha colorBits = true ↔ ∃ i : Fin nBits, alpha (colorBits.get i) ≠ 0 := by
  unfold hasAlpha
  rw [ForLoop.run_search]
  simp only [ne_eq, and_mask_eq_zero_iff]

theorem get_applyMask (colorBits maskBits : Vector Word nBits) (i : Fin nBits) :
    (applyMask colorBits maskBits).get i =
      if maskBits.get i = 0 then colorBits.get i ||| 0xff000000 else colorBits.get i :=
  ForLoop.get_run_update (fun i => maskBits.get i = 0) (· ||| 0xff000000) colorBits i

theorem rgb_applyMask (colorBits maskBits : Vector Word nBits) (i : Fin nBits) :
    rgb ((applyMask colorBits maskBits).get i) = rgb (colorBits.get i) := by
  rw [get_applyMask]
  split
  · exact rgb_or_mask _
  · rfl

/-- A mask applied twice does what it does once. -/
theorem applyMask_applyMask (colorBits maskBits : Vector Word nBits) :
    applyMask (applyMask colorBits maskBits) maskBits = applyMask colorBits maskBits := by
  have hget : ∀ i : Fin nBits, (applyMask (applyMask colorBits maskBits) maskBits).get i =
      (applyMask colorBits maskBits).get i := by
    intro i
    rw [get_applyMask, get_applyMask]
    by_cases hmask : maskBits.get i = 0
    · rw [if_pos hmask, if_pos hmask, BitVec.or_assoc, BitVec.or_self]
    · rw [if_neg hmask]
  exact Vector.ext fun i hi => hget ⟨i, hi⟩

/-! ## The property -/

/-- The icon's own alpha channel, or the one its mask makes; the colours as they were. -/
structure AlphaReconstructed (colorBits maskBits pixels : Vector Word nBits) : Prop where
  kept : (∃ i : Fin nBits, alpha (colorBits.get i) ≠ 0) → pixels = colorBits
  made : (∀ i : Fin nBits, alpha (colorBits.get i) = 0) → ∀ i : Fin nBits,
    (alpha (pixels.get i) = 0xff ↔ maskBits.get i = 0) ∧ (maskBits.get i ≠ 0 → alpha (pixels.get i) = 0)
  colors : ∀ i : Fin nBits, rgb (pixels.get i) = rgb (colorBits.get i)

theorem scan0_of_hasAlpha {icon : IconBitmaps nBits} (h : hasAlpha icon.colorBits = true) :
    (createAlphaChannelBitmapFromIcon icon).scan0 = icon.colorBits := by
  simp only [createAlphaChannelBitmapFromIcon, h, Bool.not_true, if_neg Bool.false_ne_true]

theorem scan0_of_not_hasAlpha {icon : IconBitmaps nBits} (h : hasAlpha icon.colorBits = false) :
    (createAlphaChannelBitmapFromIcon icon).scan0 = applyMask icon.colorBits icon.maskBits := by
  simp only [createAlphaChannelBitmapFromIcon, h, Bool.not_false, if_pos]

theorem alphaReconstructed_of_hasAlpha {colorBits : Vector Word nBits} (h : hasAlpha colorBits = true)
    (maskBits : Vector Word nBits) : AlphaReconstructed colorBits maskBits colorBits := by
  obtain ⟨i, hi⟩ := (hasAlpha_iff colorBits).mp h
  exact ⟨fun _ => rfl, fun hnone => absurd (hnone i) hi, fun _ => rfl⟩

theorem alphaReconstructed_applyMask {colorBits : Vector Word nBits} (h : hasAlpha colorBits = false)
    (maskBits : Vector Word nBits) :
    AlphaReconstructed colorBits maskBits (applyMask colorBits maskBits) := by
  have hno : ¬ ∃ i : Fin nBits, alpha (colorBits.get i) ≠ 0 := by
    rw [← hasAlpha_iff, h]
    exact Bool.false_ne_true
  refine ⟨fun hsome => absurd hsome hno, fun hnone i => ?_, rgb_applyMask colorBits maskBits⟩
  rw [get_applyMask]
  by_cases hmask : maskBits.get i = 0
  · rw [if_pos hmask, alpha_or_mask]
    exact ⟨iff_of_true rfl hmask, fun hne => absurd hmask hne⟩
  · rw [if_neg hmask, hnone i]
    exact ⟨iff_of_false (by decide) hmask, fun _ => rfl⟩

/-- With the pixels of the result the same bitmap is made again. -/
theorem createAlphaChannelBitmapFromIcon_again (icon : IconBitmaps nBits) :
    createAlphaChannelBitmapFromIcon
        { icon with colorBits := (createAlphaChannelBitmapFromIcon icon).scan0 } =
      createAlphaChannelBitmapFromIcon icon := by
  have hscan : (createAlphaChannelBitmapFromIcon
      { icon with colorBits := (createAlphaChannelBitmapFromIcon icon).scan0 }).scan0 =
        (createAlphaChannelBitmapFromIcon icon).scan0 := by
    cases h : hasAlpha icon.colorBits with
    | true =>
      rw [scan0_of_hasAlpha h]
      exact scan0_of_hasAlpha h
    | false =>
      rw [scan0_of_not_hasAlpha h]
      cases h' : hasAlpha (applyMask icon.colorBits icon.maskBits) with
      | true => exact scan0_of_hasAlpha h'
      | false =>
        -- the mask made nothing opaque
        have hagain : (createAlphaChannelBitmapFromIcon
            { icon with colorBits := applyMask icon.colorBits icon.maskBits }).scan0 =
              applyMask (applyMask icon.colorBits icon.maskBits) icon.maskBits := scan0_of_not_hasAlpha h'
        exact hagain.trans (applyMask_applyMask icon.colorBits icon.maskBits)
  exact congrArg (Bitmap.mk icon.bmWidth icon.bmHeight (icon.bmWidth * 4) PixelFormat32bppARGB) hscan

/-- **The alpha channel.**  For arrays of any length the pixels handed to GDI+ are the icon's
own if one of them has alpha, and opaque exactly where the mask is 0 otherwise, colours
unchanged; on its own result the function changes nothing. -/
theorem alpha_reconstructed (icon : IconBitmaps nBits) :
    AlphaReconstructed icon.colorBits icon.maskBits (createAlphaChannelBitmapFromIcon icon).scan0 ∧
      createAlphaChannelBitmapFromIcon
          { icon with colorBits := (createAlphaChannelBitmapFromIcon icon).scan0 } =
        createAlphaChannelBitmapFromIcon icon := by
  refine ⟨?_, createAlphaChannelBitmapFromIcon_again icon⟩
  cases h : hasAlpha icon.colorBits with
  | true =>
    rw [scan0_of_hasAlpha h]
    exact alphaReconstructed_of_hasAlpha h icon.maskBits
  | false =>
    rw [scan0_of_not_hasAlpha h]
    exact alphaReconstructed_applyMask h icon.maskBits

/-- No pixel has alpha; the second is masked out. -/
example : (createAlphaChannelBitmapFromIcon ⟨2, 1, rfl, #v[0x112233, 0x445566], #v[0, 0xffffff]⟩).scan0 =
    #v[0xff112233, 0x445566] := by decide

end

end RemoteTaskbar
