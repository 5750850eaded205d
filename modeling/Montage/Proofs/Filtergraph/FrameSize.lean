import Montage.Proofs.Clip.Scaling
import Montage.Proofs.Filtergraph.Measured

/-!
# The size of the picture that a graph makes

A clip records the size of its picture, and the graph of the clip makes a picture, whose size
follows from the filters.  `frameGauge` says how.  Where one side of a resized picture is left open,
the encoder takes the even number that is nearest to the exact ratio, and the clip records the
nearest number, rounded down to an even one (`Clip.evenScale`).  The two are the same only for some
ratios; otherwise the recorded side is 2 too small, or 2 instead of nothing (`evenScale_cases`).

The size of a picture goes back to a few clips below it, its `framePath`.  When the two roundings
agree for all clips below, the recorded size is that of the picture exactly when they agree for the
clip itself (`shows_size_iff`).
-/

namespace Montage.Filtergraph

/-! ### Two ways of rounding -/

/-- Twice the whole number that is nearest to half of `p / q`, with halves up: the even number that
is nearest to `p / q`. -/
def nearestEven (p q : ℕ) : ℕ := 2 * ((p + q) / (2 * q))

/-- The length, in pixels, that no side of a picture is to exceed: `2 ^ 31`. -/
def longestSide : ℕ := 2147483648

/-- Rounding `p / q` to the nearest number and then down to an even one leads to the even number
that is nearest: the ratio is at least 1, and its whole part is even or 1, or the rest is at least a
half. -/
def RoundsAlike (p q : ℕ) : Prop := 1 ≤ p / q ∧ (p / q = 1 ∨ p / q % 2 = 0 ∨ q ≤ 2 * (p % q))

instance (p q : ℕ) : Decidable (RoundsAlike p q) := inferInstanceAs (Decidable (_ ∧ _))

/-- The nearest even number follows from the whole part of a ratio. -/
lemma nearestEven_eq (p : ℕ) {q : ℕ} (hq : 0 < q) : nearestEven p q = 2 * ((p / q + 1) / 2) := by
  rw [nearestEven, Nat.mul_comm 2 q, ← Nat.div_div_eq_div_mul, Nat.add_div_right p hq]

/-- A ratio is rounded up when its rest is at least a half. -/
lemma rounded_eq (p : ℕ) {q : ℕ} (hq : 0 < q) :
    (p + q / 2) / q = p / q + if q ≤ 2 * (p % q) then 1 else 0 := by
  have hrest : p % q < q := Nat.mod_lt p hq
  conv_lhs => rw [← Nat.div_add_mod p q, Nat.add_assoc, Nat.mul_add_div hq]
  congr 1
  split
  · rw [Nat.div_eq_of_lt_le] <;> omega
  · exact Nat.div_eq_of_lt (by omega)

/-- The recorded side is the even number that is nearest to the exact ratio, or it is 2 where the
ratio is below 1, or it is 2 too small. -/
theorem evenScale_cases {value num den : UInt32} (hden : 0 < den.toNat)
    (hfits : (Clip.evenScale value num den).toNat ≤ longestSide) :
    (RoundsAlike (value.toNat * num.toNat) den.toNat ∧
      nearestEven (value.toNat * num.toNat) den.toNat = (Clip.evenScale value num den).toNat) ∨
    ¬ RoundsAlike (value.toNat * num.toNat) den.toNat ∧
      (value.toNat * num.toNat / den.toNat = 0 ∧ (Clip.evenScale value num den).toNat = 2 ∧
        nearestEven (value.toNat * num.toNat) den.toNat = 0 ∨
      nearestEven (value.toNat * num.toNat) den.toNat =
        (Clip.evenScale value num den).toNat + 2) := by
  have hside := Clip.toNat_evenScale value num den
  have hsize : UInt32.size = 4294967296 := rfl
  rw [rounded_eq _ hden] at hside
  rw [nearestEven_eq _ hden]
  unfold longestSide at hfits
  unfold RoundsAlike
  generalize value.toNat * num.toNat / den.toNat = whole at *
  generalize value.toNat * num.toNat % den.toNat = rest at *
  split at hside <;> omega

/-- The recorded side is the nearest even number exactly when both ways of rounding agree. -/
lemma nearestEven_eq_evenScale_iff {value num den : UInt32} (hden : 0 < den.toNat)
    (hfits : (Clip.evenScale value num den).toNat ≤ longestSide) :
    nearestEven (value.toNat * num.toNat) den.toNat = (Clip.evenScale value num den).toNat ↔
      RoundsAlike (value.toNat * num.toNat) den.toNat := by
  rcases evenScale_cases hden hfits with ⟨halike, heq⟩ | ⟨hnot, ⟨-, htwo, hzero⟩ | hsmall⟩
  · exact iff_of_true heq halike
  · exact iff_of_false (by omega) hnot
  · exact iff_of_false (by omega) hnot

/-! ### The size of a stream -/

/-- The size of a picture of the given size that is scaled.  When one side is left open, it is the
even number that is nearest to the ratio. -/
def scaledFrame (width height : Option UInt32) (size : Option (ℕ × ℕ)) : Option (ℕ × ℕ) :=
  match width, height with
  | some w, some h => some (w.toNat, h.toNat)
  | some w, none => size.map fun s => (w.toNat, nearestEven (s.2 * w.toNat) s.1)
  | none, some h => size.map fun s => (nearestEven (s.1 * h.toNat) s.2, h.toNat)
  | none, none => size

/-- The size of a picture, in pixels, as far as it is known.  Filters that leave it read it from
their first stream. -/
def frameGauge : Gauge (Option (ℕ × ℕ)) where
  source t stream :=
    match stream with
    | .picture => t.size.map fun s => (s.width.toNat, s.height.toNat)
    | .sound => none
  apply filter sizes :=
    match filter with
    | .scale width height => scaledFrame width height sizes.head?.join
    | .pad margin _ _ =>
      sizes.head?.join.map fun s => (s.1 + 2 * margin.toNat, s.2 + 2 * margin.toNat)
    | .black size _ => some (size.width.toNat, size.height.toNat)
    | .overlay _ => sizes.head?.join
    | .concat _ .picture => sizes.head?.join
    | .trim .picture _ _ => sizes.head?.join
    | .copy .picture => sizes.head?.join
    | _ => none

/-- A border is added at both ends of a side. -/
@[simp] lemma frameGauge_pad (margin : UInt32) (color : Color) (opacity : UInt32) (w h : ℕ) :
    frameGauge.apply (.pad margin color opacity) [some (w, h)] =
      some (w + 2 * margin.toNat, h + 2 * margin.toNat) := rfl

/-- Layers leave the size of the picture below them. -/
lemma stackMeasure_frameGauge (cs : List Clip) (b : Option (ℕ × ℕ)) :
    stackMeasure frameGauge cs b = b := by
  induction cs with
  | nil => rfl
  | cons c cs ih =>
    rw [stackMeasure, coveredBy]
    split
    · exact ih
    · exact ih

/-! ### Where the size of a picture comes from -/

/-- The clips that the size of the picture of a clip goes back to, from the clip down: to the first
part of a sequence and below what leaves or changes a size, up to a source file, a canvas or a
picture whose sides are both given. -/
def framePath : Clip → List Clip
  | .source t medium path limit => [.source t medium path limit]
  | .resized t input width height =>
    .resized t input width height ::
      if width.isSome && height.isSome then [] else framePath input
  | .framed t input margin color opacity => .framed t input margin color opacity :: framePath input
  | .placed t input => .placed t input :: framePath input
  | .joined t [] => [.joined t []]
  | .joined t (c :: cs) => .joined t (c :: cs) :: framePath c
  | .layered t layers size => [.layered t layers size]
  | .scored t picture sound => .scored t picture sound :: framePath picture
  | .trimmed t input start stop => .trimmed t input start stop :: framePath input

/-- The clip is no picture scaled to one given side, or both ways of rounding the other side
agree. -/
def ScalesAlike : Clip → Prop
  | .resized _ input (some width) none => ∀ s, input.size = some s →
    RoundsAlike (s.height.toNat * width.toNat) s.width.toNat
  | .resized _ input none (some height) => ∀ s, input.size = some s →
    RoundsAlike (s.width.toNat * height.toNat) s.height.toNat
  | _ => True

/-- No recorded side of the picture is too long. -/
def InRange (c : Clip) : Prop :=
  ∀ s, c.size = some s → s.width.toNat ≤ longestSide ∧ s.height.toNat ≤ longestSide

/-- The picture of a clip has the recorded size. -/
def TrueToSize (c : Clip) : Prop :=
  ∀ s, c.size = some s → pictureMeasure frameGauge c = some (s.width.toNat, s.height.toNat)

variable {c input : Clip} {t : Traits}

/-- A clip is on its own path. -/
lemma mem_framePath (c : Clip) : c ∈ framePath c := by
  cases c with
  | joined t parts => cases parts <;> simp [framePath]
  | _ => simp [framePath]

/-- A clip of known size is true to it exactly when its picture has this size. -/
lemma trueToSize_iff_of_size {s : Canvas} (hs : c.size = some s) :
    TrueToSize c ↔ pictureMeasure frameGauge c = some (s.width.toNat, s.height.toNat) := by
  unfold TrueToSize
  simp [hs]

/-- What is recorded of a picture that is scaled to a width. -/
lemma scaledSize_width {width : UInt32} {k s : Canvas} :
    Clip.scaledSize (some width) none (some k) = some s ↔
      0 < k.width ∧ s = ⟨width, Clip.evenScale k.height width k.width⟩ := by
  have hsize : Clip.scaledSize (some width) none (some k) =
      if 0 < k.width then some ⟨width, Clip.evenScale k.height width k.width⟩ else none := rfl
  rw [hsize, Option.ite_none_right_eq_some, Option.some.injEq, eq_comm]

/-- What is recorded of a picture that is scaled to a height. -/
lemma scaledSize_height {height : UInt32} {k s : Canvas} :
    Clip.scaledSize none (some height) (some k) = some s ↔
      0 < k.height ∧ s = ⟨Clip.evenScale k.width height k.height, height⟩ := by
  have hsize : Clip.scaledSize none (some height) (some k) =
      if 0 < k.height then some ⟨Clip.evenScale k.width height k.height, height⟩ else none := rfl
  rw [hsize, Option.ite_none_right_eq_some, Option.some.injEq, eq_comm]

/-- Where a size is recorded only from the size of the picture before, this size is known too. -/
lemma exists_sizes {width height : Option UInt32}
    (hneeds : Clip.scaledSize width height none = none)
    (hsize : t.size = Clip.scaledSize width height input.size) (hknown : t.size ≠ none) :
    ∃ k s, input.size = some k ∧ t.size = some s ∧
      Clip.scaledSize width height (some k) = some s := by
  obtain ⟨k, hk⟩ : ∃ k, input.size = some k := by
    refine Option.ne_none_iff_exists'.1 fun hnone => hknown ?_
    rw [hsize, hnone, hneeds]
  obtain ⟨s, hs⟩ := Option.ne_none_iff_exists'.1 hknown
  rw [hk, hs] at hsize
  exact ⟨k, s, hk, hs, hsize.symm⟩

/-- A picture scaled to a width has the recorded size exactly when both ways of rounding the height
agree. -/
lemma trueToSize_toWidth {width : UInt32} (hinput : TrueToSize input)
    (hsize : t.size = Clip.scaledSize (some width) none input.size) (hknown : t.size ≠ none)
    (hrange : InRange (.resized t input (some width) none)) :
    TrueToSize (.resized t input (some width) none) ↔
      ScalesAlike (.resized t input (some width) none) := by
  obtain ⟨k, s, hk, hs, hscale⟩ := exists_sizes rfl hsize hknown
  obtain ⟨hwidth, rfl⟩ := scaledSize_width.1 hscale
  have hscaled : pictureMeasure frameGauge (.resized t input (some width) none) =
      some (width.toNat, nearestEven (k.height.toNat * width.toNat) k.width.toNat) := by
    rw [pictureMeasure, hinput k hk]
    rfl
  have hrecorded : (Clip.resized t input (some width) none).size =
      some ⟨width, Clip.evenScale k.height width k.width⟩ := hs
  rw [trueToSize_iff_of_size hrecorded, hscaled]
  simp [ScalesAlike, hk,
    nearestEven_eq_evenScale_iff (UInt32.lt_iff_toNat_lt.1 hwidth) (hrange _ hs).2]

/-- A picture scaled to a height has the recorded size exactly when both ways of rounding the width
agree. -/
lemma trueToSize_toHeight {height : UInt32} (hinput : TrueToSize input)
    (hsize : t.size = Clip.scaledSize none (some height) input.size) (hknown : t.size ≠ none)
    (hrange : InRange (.resized t input none (some height))) :
    TrueToSize (.resized t input none (some height)) ↔
      ScalesAlike (.resized t input none (some height)) := by
  obtain ⟨k, s, hk, hs, hscale⟩ := exists_sizes rfl hsize hknown
  obtain ⟨hheight, rfl⟩ := scaledSize_height.1 hscale
  have hscaled : pictureMeasure frameGauge (.resized t input none (some height)) =
      some (nearestEven (k.width.toNat * height.toNat) k.height.toNat, height.toNat) := by
    rw [pictureMeasure, hinput k hk]
    rfl
  have hrecorded : (Clip.resized t input none (some height)).size =
      some ⟨Clip.evenScale k.width height k.height, height⟩ := hs
  rw [trueToSize_iff_of_size hrecorded, hscaled]
  simp [ScalesAlike, hk,
    nearestEven_eq_evenScale_iff (UInt32.lt_iff_toNat_lt.1 hheight) (hrange _ hs).1]

/-- A scaled picture has the recorded size exactly when both ways of rounding agree, if the picture
that it is scaled from has its own. -/
lemma trueToSize_resized {width height : Option UInt32}
    (hinput : ¬ (width.isSome && height.isSome) = true → TrueToSize input)
    (hsize : t.size = Clip.scaledSize width height input.size) (hknown : t.size ≠ none)
    (hrange : InRange (.resized t input width height)) :
    TrueToSize (.resized t input width height) ↔ ScalesAlike (.resized t input width height) := by
  cases width with
  | none =>
    cases height with
    | none =>
      have hsame : t.size = input.size := by
        rw [hsize]
        cases input.size <;> rfl
      exact iff_of_true (fun s hs => hinput (by simp) s (hsame.symm.trans hs)) trivial
    | some height => exact trueToSize_toHeight (hinput (by simp)) hsize hknown hrange
  | some width =>
    cases height with
    | none => exact trueToSize_toWidth (hinput (by simp)) hsize hknown hrange
    | some height =>
      refine iff_of_true (fun s hs => ?_) trivial
      have hgiven : some s = some ⟨width, height⟩ := hs.symm.trans hsize
      cases hgiven
      rfl

/-- A side with a border is as long as it is recorded, unless it is too long for 32 bits. -/
lemma toNat_grow {side margin : UInt32} (h : (Clip.grow side margin).toNat ≤ longestSide) :
    (Clip.grow side margin).toNat = side.toNat + 2 * margin.toNat := by
  have hsize : UInt32.size = 4294967296 := rfl
  have hgrow : (Clip.grow side margin).toNat =
      min (side.toNat + 2 * margin.toNat) (UInt32.size - 1) := by
    unfold Clip.grow
    refine UInt32.toNat_ofNat_of_lt' ?_
    omega
  unfold longestSide at h
  omega

/-- A picture with a border has the recorded size if the picture below it has. -/
lemma trueToSize_framed {margin : UInt32} {color : Color} {opacity : UInt32}
    (hinput : TrueToSize input) (hsize : t.size = input.size.map (Clip.framedSize margin))
    (hrange : InRange (.framed t input margin color opacity)) :
    TrueToSize (.framed t input margin color opacity) := by
  intro s hs
  obtain ⟨hwidth, hheight⟩ := hrange s hs
  rw [show t.size = some s from hs, eq_comm, Option.map_eq_some_iff] at hsize
  obtain ⟨k, hk, rfl⟩ := hsize
  rw [pictureMeasure, hinput k hk]
  simp only [frameGauge_pad, Clip.framedSize, toNat_grow hwidth, toNat_grow hheight]

/-- The size that a coherent clip records is that of its picture, if no side is too long and both
ways of rounding agree wherever the size goes back to. -/
lemma trueToSize_of_coherent (hc : c.Coherent) (hrange : ∀ n ∈ framePath c, InRange n)
    (halike : ∀ n ∈ framePath c, ScalesAlike n) : TrueToSize c := by
  have hsource (t : Traits) (medium : Medium) (path : Path) (limit : Option Seconds) :
      TrueToSize (.source t medium path limit) := by
    intro s hs
    rw [pictureMeasure]
    exact congrArg (Option.map fun s : Canvas => (s.width.toNat, s.height.toNat)) hs
  induction hc with
  | image path duration size => exact hsource _ _ _ _
  | video path limit probed hasSound size => exact hsource _ _ _ _
  | audio path limit probed => exact hsource _ _ _ _
  | @resized input width height hinput hpicture ih =>
    obtain ⟨hself, hbelow⟩ := List.forall_mem_cons.1 hrange
    obtain ⟨hselfAlike, hbelowAlike⟩ := List.forall_mem_cons.1 halike
    by_cases hknown : Clip.scaledSize width height input.size = none
    · intro s hs
      cases hknown.symm.trans hs
    · refine (trueToSize_resized (fun hopen => ?_) rfl hknown hself).2 hselfAlike
      rw [if_neg hopen] at hbelow hbelowAlike
      exact ih hbelow hbelowAlike
  | framed margin color opacity hinput hpicture ih =>
    obtain ⟨hself, hbelow⟩ := List.forall_mem_cons.1 hrange
    exact trueToSize_framed (ih hbelow (List.forall_mem_cons.1 halike).2) rfl hself
  | placed offset hinput hpicture ih =>
    exact ih (List.forall_mem_cons.1 hrange).2 (List.forall_mem_cons.1 halike).2
  | @joined first rest hparts hpictures ih =>
    intro s hs
    have hfirst := ih first List.mem_cons_self (List.forall_mem_cons.1 hrange).2
      (List.forall_mem_cons.1 halike).2 s hs
    rw [pictureMeasure, pictureMeasures, hfirst]
    rfl
  | layered size hlayers hsome ih =>
    intro s hs
    cases hs
    rw [pictureMeasure, stackMeasure_frameGauge]
    rfl
  | scored hpicture hsound hseen hheard ihp ihs =>
    exact ihp (List.forall_mem_cons.1 hrange).2 (List.forall_mem_cons.1 halike).2
  | trimmed begins stop hinput hstop hstart ih =>
    intro s hs
    have hinput := ih (List.forall_mem_cons.1 hrange).2 (List.forall_mem_cons.1 halike).2 s hs
    rw [pictureMeasure, hinput]
    rfl

/-- If both ways of rounding agree wherever the size of a coherent clip goes back to below it, the
recorded size is that of the picture exactly when they agree for the clip itself. -/
lemma trueToSize_iff_of_coherent (hc : c.Coherent) (hknown : c.size ≠ none)
    (hrange : ∀ n ∈ framePath c, InRange n) (hbelow : ∀ n ∈ (framePath c).tail, ScalesAlike n) :
    TrueToSize c ↔ ScalesAlike c := by
  have hsame (hpath : framePath c = c :: (framePath c).tail) (halike : ScalesAlike c) :
      TrueToSize c ↔ ScalesAlike c := by
    refine iff_of_true (trueToSize_of_coherent hc hrange ?_) halike
    rw [hpath]
    exact List.forall_mem_cons.2 ⟨halike, hbelow⟩
  cases hc with
  | @resized input width height hinput hpicture =>
    refine trueToSize_resized (fun hopen => ?_) rfl hknown (hrange _ (mem_framePath _))
    have hpath : (framePath (.resized { input.traits with
        size := Clip.scaledSize width height input.size } input width height)).tail =
        framePath input := if_neg hopen
    rw [hpath] at hbelow
    refine trueToSize_of_coherent hinput (fun n hn => hrange n ?_) hbelow
    exact List.mem_of_mem_tail (hpath ▸ hn)
  | _ => exact hsame rfl trivial

/-- A coherent clip of known size has a picture. -/
lemma hasPicture_of_size (hc : c.Coherent) (hknown : c.size ≠ none) : c.hasPicture = true := by
  induction hc with
  | image path duration size => rfl
  | video path limit probed hasSound size => rfl
  | audio path limit probed => exact absurd rfl hknown
  | resized width height hinput hpicture ih => exact hpicture
  | framed margin color opacity hinput hpicture ih => exact hpicture
  | placed offset hinput hpicture ih => exact hpicture
  | @joined first rest hparts hpictures ih => exact ih first List.mem_cons_self hknown
  | layered size hlayers hsome ih => rfl
  | scored hpicture hsound hseen hheard ihp ihs => exact hseen
  | trimmed begins stop hinput hstop hstart ih => exact ih hknown

/-- The graph of a clip that is obtained makes a picture of the recorded size exactly when both ways
of rounding agree for the clip, if no side is too long and they agree for the clips below it that
the size goes back to. -/
theorem shows_size_iff {h : Host} {o : RenderOptions} {g : Filtergraph} {s : Canvas}
    (hc : Renderer.Obtained h o c) (hg : ofClip c = .ok g) (hs : c.size = some s)
    (hrange : ∀ n ∈ framePath c, InRange n) (hbelow : ∀ n ∈ (framePath c).tail, ScalesAlike n) :
    g.inputs = (openedLeaves c).map Leaf.input ∧
    (Shows frameGauge (openedLeaves c) g (.final .picture)
      (some (s.width.toNat, s.height.toNat)) ↔ ScalesAlike c) := by
  have hknown : c.size ≠ none := by
    rw [hs]
    exact Option.some_ne_none s
  have hshows := (shows_ofClip frameGauge hc.coherent hg).1 (hasPicture_of_size hc.coherent hknown)
  refine ⟨inputs_ofClip hg, ?_⟩
  rw [← trueToSize_iff_of_coherent hc.coherent hknown hrange hbelow, trueToSize_iff_of_size hs]
  constructor
  · intro hsize
    exact ((hshows _).1 ((hsize _).2 rfl)).symm
  · intro hsize
    rw [hsize] at hshows
    exact hshows

open Renderer

/-- A picture of 4 by 3 pixels, scaled to a width. -/
def scaledCard (width : UInt32) : Clip :=
  .resized { card.traits with size := Clip.scaledSize (some width) none card.size } card
    (some width) none

/-- Scaling the picture is one more call. -/
lemma obtained_scaledCard (width : UInt32) : Obtained .standard rehearsal (scaledCard width) := by
  refine @Obtained.made _ _ (.effect card (.resize none (some width))) studio _ ?_
    (pureReply_eq_ok.2 rfl)
  simp [Recipe.clips, obtained_card]

/-- At twice the width, the exact height is 6, and this is recorded and made. -/
theorem shows_size_of_double : ∃ g, ofClip (scaledCard 8) = .ok g ∧
    (scaledCard 8).size = some ⟨8, 6⟩ ∧
    Shows frameGauge (openedLeaves (scaledCard 8)) g (.final .picture) (some (8, 6)) := by
  have hpath : framePath (scaledCard 8) = [scaledCard 8, card] := rfl
  have hrange : ∀ n ∈ framePath (scaledCard 8), InRange n := by
    rw [hpath]
    refine List.forall_mem_cons.2 ⟨?_, List.forall_mem_singleton.2 ?_⟩ <;>
      · intro s hs
        cases hs
        decide
  have hbelow : ∀ n ∈ (framePath (scaledCard 8)).tail, ScalesAlike n := by
    rw [hpath]
    exact List.forall_mem_singleton.2 trivial
  have halike : ScalesAlike (scaledCard 8) := by
    intro s hs
    cases hs
    decide
  exact ⟨_, rfl, rfl,
    (shows_size_iff (obtained_scaledCard 8) rfl rfl hrange hbelow).2.2 halike⟩

/-- At the same width, the exact height is 3: a height of 2 is recorded, and one of 4 is made. -/
theorem shows_size_of_odd : ∃ g, ofClip (scaledCard 4) = .ok g ∧
    (scaledCard 4).size = some ⟨4, 2⟩ ∧
    Shows frameGauge (openedLeaves (scaledCard 4)) g (.final .picture) (some (4, 4)) :=
  ⟨_, rfl, rfl, (shows_ofClip frameGauge (obtained_scaledCard 4).coherent rfl).1 rfl⟩

end Montage.Filtergraph
