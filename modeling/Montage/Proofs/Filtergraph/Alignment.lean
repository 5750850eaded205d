import Montage.Proofs.Filtergraph.Measured

/-!
# Sound and picture of a sequence

The pictures of a sequence are joined by one filter and its sounds by another.  They stay together
when each part has a sound that lasts as long as its picture (`Aligned`).  `lengthGauge` says how
long a stream lasts, exactly and in ticks.

A part without sound is given silence of its recorded length.  But a part with sound keeps it as it
is, and a sound may be too short: that of a picture which was given a shorter sound, or of a
composition whose longest layer is silent.  So a sequence is aligned exactly when the sound of every
part lasts as long as the picture does; and as long as recorded lengths are exact, no sound lasts
longer (`aligned_iff_of_obtained`).
-/

namespace Montage

/-! ### Exact lengths -/

/-- The exact number of ticks, when the number is finite. -/
def Seconds.ticks? : Seconds → Option Int
  | .finite negative ticks => some (signedTicks negative ticks)
  | _ => none

/-- The recorded length of a clip in ticks, when it is known and finite. -/
def Traits.length? (t : Traits) : Option Int := t.duration.bind Seconds.ticks?

namespace Filtergraph

/-- The sum of lengths that are known. -/
def total : List (Option Int) → Option Int
  | [] => some 0
  | l :: ls => do return (← l) + (← total ls)

/-- The longest of lengths that are known, when there is one. -/
def longest : List (Option Int) → Option Int
  | [] => none
  | [l] => l
  | l :: ls => do return max (← l) (← longest ls)

/-- The length of the part of a stream between two positions. -/
def cutLength (start : Seconds) (stop : Option Seconds) (length : Option Int) : Option Int := do
  let start ← start.ticks?
  let length ← length
  match stop with
  | none => return length - start
  | some stop => return min (← stop.ticks?) length - start

/-- How long a stream lasts, in ticks: a stream of a source file as long as it is recorded. -/
def lengthGauge : Gauge (Option Int) where
  source t _ := t.length?
  apply filter lengths :=
    match filter, lengths with
    | .scale _ _, [length] => length
    | .pad _ _ _, [length] => length
    | .copy _, [length] => length
    | .concat _ _, lengths => total lengths
    | .black _ duration, _ => duration.ticks?
    | .overlay _, below :: _ => below
    | .silence duration, _ => duration.ticks?
    | .mix _, lengths => longest lengths
    | .limit stop, [length] => do return min (← stop.ticks?) (← length)
    | .trim _ start stop, [length] => cutLength start stop length
    | _, _ => none

/-- A length is known, and it is no longer than another one, which is known too. -/
def Fits (s l : Option Int) : Prop := ∃ m n, s = some m ∧ l = some n ∧ m ≤ n

/-- A length that is known fits itself. -/
lemma fits_self {l : Option Int} (h : l ≠ none) : Fits l l := by
  obtain ⟨n, rfl⟩ := Option.ne_none_iff_exists'.1 h
  exact ⟨n, n, rfl, rfl, Int.le_refl n⟩

/-- Sums of lengths that fit each other fit. -/
lemma fits_total {ss ls : List (Option Int)} (h : List.Forall₂ Fits ss ls) :
    Fits (total ss) (total ls) := by
  induction h with
  | nil => exact ⟨0, 0, rfl, rfl, Int.le_refl 0⟩
  | cons hfirst _ ih =>
    obtain ⟨m, n, rfl, rfl, hle⟩ := hfirst
    obtain ⟨m', n', hm', hn', hle'⟩ := ih
    exact ⟨m + m', n + n', by simp [total, hm'], by simp [total, hn'], Int.add_le_add hle hle'⟩

/-- The sum of lengths that are known is known. -/
lemma total_ne_none {ls : List (Option Int)} (h : ∀ l ∈ ls, l ≠ none) : total ls ≠ none := by
  have hfits : Fits (total ls) (total ls) :=
    fits_total (List.forall₂_same.2 fun l hl => fits_self (h l hl))
  obtain ⟨m, -, hm, -⟩ := hfits
  rw [hm]
  exact Option.some_ne_none m

/-- The longest of lengths fits when each of them does. -/
lemma fits_longest {ss : List (Option Int)} {l : Option Int} (hne : ss ≠ [])
    (h : ∀ s ∈ ss, Fits s l) : Fits (longest ss) l := by
  induction ss with
  | nil => exact absurd rfl hne
  | cons s ss ih =>
    obtain ⟨hs, hss⟩ := List.forall_mem_cons.1 h
    cases ss with
    | nil => exact hs
    | cons s' ss =>
      obtain ⟨m, n, rfl, rfl, hle⟩ := hs
      obtain ⟨m', n', hm', hn', hle'⟩ := ih (List.cons_ne_nil s' ss) hss
      cases hn'
      exact ⟨max m m', n, by simp [longest, hm'], rfl, Int.max_le.2 ⟨hle, hle'⟩⟩

/-- The same part of a stream that fits another one fits the part of the other one. -/
lemma fits_cutLength {start : Seconds} {stop : Option Seconds} {s l : Option Int} (h : Fits s l)
    (hknown : cutLength start stop l ≠ none) :
    Fits (cutLength start stop s) (cutLength start stop l) := by
  obtain ⟨m, n, rfl, rfl, hle⟩ := h
  unfold cutLength at *
  cases hstart : start.ticks? with
  | none => simp [hstart] at hknown
  | some first =>
    cases stop with
    | none => exact ⟨m - first, n - first, rfl, rfl, by omega⟩
    | some stop =>
      cases hstop : stop.ticks? with
      | none => simp [hstart, hstop] at hknown
      | some last =>
        exact ⟨min last m - first, min last n - first, by simp [hstop], by simp [hstop], by omega⟩

/-- A sound that is cut off at a position fits that position. -/
lemma fits_limit {stop : Seconds} {s : Option Int} (hstop : stop.ticks? ≠ none) (hs : s ≠ none) :
    Fits (lengthGauge.apply (.limit stop) [s]) stop.ticks? := by
  obtain ⟨m, rfl⟩ := Option.ne_none_iff_exists'.1 hs
  obtain ⟨n, hn⟩ := Option.ne_none_iff_exists'.1 hstop
  refine ⟨min n m, n, ?_, hn, Int.min_le_left n m⟩
  simp [lengthGauge, hn]

/-- Silence lasts as long as it is recorded. -/
lemma apply_silence (duration : Option Seconds) :
    lengthGauge.apply (.silence (duration.getD .undefined)) [] = duration.bind Seconds.ticks? := by
  cases duration <;> rfl

/-- A canvas lasts as long as it is recorded. -/
lemma apply_black (size : Canvas) (duration : Option Seconds) :
    lengthGauge.apply (.black size (duration.getD .undefined)) [] =
      duration.bind Seconds.ticks? := by
  cases duration <;> rfl

/-- The sound of a source file lasts as long as it is recorded. -/
lemma soundMeasure_source (t : Traits) (medium : Medium) (path : Path) (limit : Option Seconds) :
    soundMeasure lengthGauge (.source t medium path limit) = t.length? := rfl

/-- Sounds that are played together last as long as the longest of them. -/
lemma mixedBy_lengthGauge (ls : List (Option Int)) : mixedBy lengthGauge ls = longest ls := by
  unfold mixedBy
  split <;> rfl

/-- Layers leave the length of the picture below them. -/
lemma stackMeasure_lengthGauge (cs : List Clip) (b : Option Int) :
    stackMeasure lengthGauge cs b = b := by
  induction cs with
  | nil => rfl
  | cons c cs ih =>
    rw [stackMeasure, coveredBy]
    split
    · exact ih
    · exact ih

/-! ### Recorded lengths -/

/-- Two finite numbers fit the larger one of them. -/
lemma fits_max {a b : Seconds} (ha : a.ticks? ≠ none) (hb : b.ticks? ≠ none) :
    Fits a.ticks? (a.max b).ticks? ∧ Fits b.ticks? (a.max b).ticks? := by
  match a, b with
  | .finite p m, .finite q n =>
    have hlt : (Seconds.finite q n).lt (.finite p m) =
        decide (Seconds.signedTicks q n < Seconds.signedTicks p m) := rfl
    rw [Seconds.max, if_neg (by simp), hlt]
    by_cases hless : Seconds.signedTicks q n < Seconds.signedTicks p m
    · rw [if_pos (decide_eq_true hless)]
      exact ⟨fits_self ha, _, _, rfl, rfl, Int.le_of_lt hless⟩
    · rw [if_neg (by simp [hless])]
      exact ⟨⟨_, _, rfl, rfl, Int.not_lt.1 hless⟩, fits_self hb⟩

/-- A length that fits a second one, which fits a third one, fits the third one. -/
lemma Fits.trans {k l m : Option Int} (h : Fits k l) (h' : Fits l m) : Fits k m := by
  obtain ⟨a, b, rfl, rfl, hle⟩ := h
  obtain ⟨b', c, hb', rfl, hle'⟩ := h'
  cases hb'
  exact ⟨a, c, rfl, rfl, Int.le_trans hle hle'⟩

/-- Finite numbers fit the largest one of them. -/
lemma fits_foldl_max {x : Seconds} {xs : List Seconds} (hx : x.ticks? ≠ none)
    (hxs : ∀ y ∈ xs, y.ticks? ≠ none) :
    ∀ y ∈ x :: xs, Fits y.ticks? (xs.foldl Seconds.max x).ticks? := by
  induction xs generalizing x with
  | nil =>
    intro y hy
    rw [List.mem_singleton.1 hy]
    exact fits_self hx
  | cons z xs ih =>
    obtain ⟨hz, hxs⟩ := List.forall_mem_cons.1 hxs
    obtain ⟨hfirst, hsecond⟩ := fits_max hx hz
    have hmax : (x.max z).ticks? ≠ none := by
      obtain ⟨-, n, -, hn, -⟩ := hfirst
      rw [hn]
      exact Option.some_ne_none n
    obtain ⟨hlarger, hrest⟩ := List.forall_mem_cons.1 (ih hmax hxs)
    exact List.forall_mem_cons.2 ⟨hfirst.trans hlarger,
      List.forall_mem_cons.2 ⟨hsecond.trans hlarger, hrest⟩⟩

/-- Lengths that are all known have a largest one. -/
lemma maximumKnown_map_some (x : Seconds) (xs : List Seconds) :
    Seconds.maximumKnown ((x :: xs).map some) = some (xs.foldl Seconds.max x) := by
  have hall (ys : List Seconds) : (ys.map some).mapM id = some ys := by
    induction ys with
    | nil => rfl
    | cons y ys ih => simp [ih]
  rw [Seconds.maximumKnown, hall]
  rfl

/-- Lengths that are known and finite fit the largest one of them. -/
lemma fits_maximumKnown {ds : List (Option Seconds)}
    (hknown : ∀ d ∈ ds, d.bind Seconds.ticks? ≠ none) :
    ∀ d ∈ ds, Fits (d.bind Seconds.ticks?) ((Seconds.maximumKnown ds).bind Seconds.ticks?) := by
  have hall : ∃ xs : List Seconds, ds = xs.map some := by
    induction ds with
    | nil => exact ⟨[], rfl⟩
    | cons d ds ih =>
      obtain ⟨hd, hds⟩ := List.forall_mem_cons.1 hknown
      obtain ⟨xs, rfl⟩ := ih hds
      cases d with
      | none => exact absurd rfl hd
      | some x => exact ⟨x :: xs, rfl⟩
  obtain ⟨xs, rfl⟩ := hall
  cases xs with
  | nil => simp
  | cons x xs =>
    rw [maximumKnown_map_some]
    intro d hd
    obtain ⟨y, hy, rfl⟩ := List.mem_map.1 hd
    obtain ⟨hx, hxs⟩ := List.forall_mem_cons.1 hknown
    exact fits_foldl_max hx (fun z hz => hxs (some z) (List.mem_map_of_mem hz)) y hy

/-- The lengths of all source files below a clip are known and finite, and what is recorded of
sequences and parts of clips has not been rounded. -/
inductive Exact : Clip → Prop where
  | source {t : Traits} {medium : Medium} {path : Path} {limit : Option Seconds}
      (hknown : t.length? ≠ none) : Exact (.source t medium path limit)
  | resized {t : Traits} {input : Clip} {width height : Option UInt32} (hinput : Exact input) :
      Exact (.resized t input width height)
  | framed {t : Traits} {input : Clip} {margin : UInt32} {color : Color} {opacity : UInt32}
      (hinput : Exact input) : Exact (.framed t input margin color opacity)
  | placed {t : Traits} {input : Clip} (hinput : Exact input) : Exact (.placed t input)
  | joined {t : Traits} {parts : List Clip} (hparts : ∀ c ∈ parts, Exact c)
      (hsum : t.length? = total (parts.map fun c => c.traits.length?)) : Exact (.joined t parts)
  | layered {t : Traits} {layers : List Clip} {size : Canvas} (hlayers : ∀ c ∈ layers, Exact c) :
      Exact (.layered t layers size)
  | scored {t : Traits} {picture sound : Clip} (hpicture : Exact picture) (hsound : Exact sound) :
      Exact (.scored t picture sound)
  | trimmed {t : Traits} {input : Clip} {start : Seconds} {stop : Option Seconds}
      (hinput : Exact input) (hknown : t.length? ≠ none)
      (hcut : t.length? = cutLength start stop input.traits.length?) :
      Exact (.trimmed t input start stop)

variable {c : Clip} {cs : List Clip}

/-- What the recorded length of a clip is to be good for: it is known, the picture lasts as long,
and the sound no longer. -/
structure Bounds (c : Clip) : Prop where
  known : c.traits.length? ≠ none
  picture : c.hasPicture = true → pictureMeasure lengthGauge c = c.traits.length?
  sound : c.hasSound = true → Fits (soundMeasure lengthGauge c) c.traits.length?

namespace Bounds

/-- The sound track of a part lasts no longer than the part. -/
lemma track (h : Bounds c) : Fits (trackMeasure lengthGauge c) c.traits.length? := by
  unfold trackMeasure filledBy
  split
  · rename_i hsound
    exact h.sound hsound
  · rw [apply_silence]
    exact fits_self h.known

/-- A sequence is bounded when its parts are. -/
lemma joined {t : Traits} (hparts : ∀ c ∈ cs, Bounds c)
    (hsum : t.length? = total (cs.map fun c => c.traits.length?))
    (hpictures : t.hasPicture = true → ∀ c ∈ cs, c.hasPicture = true) :
    Bounds (.joined t cs) where
  known := by
    rw [show (Clip.joined t cs).traits.length? = t.length? from rfl, hsum]
    refine total_ne_none (List.forall_mem_map.2 fun c hc => (hparts c hc).known)
  picture hpicture := by
    have hlengths : cs.map (pictureMeasure lengthGauge) = cs.map fun c => c.traits.length? :=
      List.map_congr_left fun c hc => (hparts c hc).picture (hpictures hpicture c hc)
    rw [pictureMeasure, pictureMeasures_eq, hlengths]
    exact hsum.symm
  sound _ := by
    rw [soundMeasure, trackMeasures_eq, show (Clip.joined t cs).traits.length? = t.length? from rfl,
      hsum]
    refine fits_total (List.forall₂_map_left_iff.2 (List.forall₂_map_right_iff.2 ?_))
    exact List.forall₂_same.2 fun c hc => (hparts c hc).track

/-- A composition is bounded when its layers are. -/
lemma layered {t : Traits} {size : Canvas} (hlayers : ∀ c ∈ cs, Bounds c) (hne : cs ≠ [])
    (hsound : t.hasSound = cs.any Clip.hasSound)
    (hduration : t.duration = Seconds.maximumKnown (cs.map Clip.duration)) :
    Bounds (.layered t cs size) := by
  have hfits : ∀ c ∈ cs, Fits c.traits.length? t.length? := by
    intro c hc
    rw [Traits.length?, Traits.length?, hduration]
    refine fits_maximumKnown (List.forall_mem_map.2 fun c hc => (hlayers c hc).known)
      c.duration (List.mem_map_of_mem hc)
  refine ⟨?_, fun _ => ?_, fun hheard => ?_⟩
  · obtain ⟨c, hc⟩ := List.exists_mem_of_ne_nil cs hne
    obtain ⟨-, n, -, hn, -⟩ := hfits c hc
    rw [show (Clip.layered t cs size).traits.length? = t.length? from rfl, hn]
    exact Option.some_ne_none n
  · rw [pictureMeasure, stackMeasure_lengthGauge, apply_black]
    rfl
  · rw [soundMeasure, mixedBy_lengthGauge, soundMeasures_eq]
    refine fits_longest ?_ (List.forall_mem_map.2 fun c hc => ?_)
    · obtain ⟨c, hc, hany⟩ := List.any_eq_true.1 (hsound.symm.trans hheard)
      exact List.ne_nil_of_mem (List.mem_map_of_mem (List.mem_filter.2 ⟨hc, hany⟩))
    · obtain ⟨hmem, hlayer⟩ := List.mem_filter.1 hc
      exact ((hlayers c hmem).sound hlayer).trans (hfits c hmem)

/-- A clip with the sound of another one is bounded when both are. -/
lemma scored {t : Traits} {picture sound : Clip} (hp : Bounds picture) (hs : Bounds sound)
    (hseen : picture.hasPicture = true) (hheard : sound.hasSound = true)
    (hduration : t.duration = picture.duration) : Bounds (.scored t picture sound) := by
  have hlength : (Clip.scored t picture sound).traits.length? = picture.traits.length? :=
    congrArg (Option.bind · Seconds.ticks?) hduration
  refine ⟨?_, fun _ => ?_, fun _ => ?_⟩
  · rw [hlength]
    exact hp.known
  · rw [pictureMeasure, hlength]
    exact hp.picture hseen
  · obtain ⟨m, -, hm, -⟩ := hs.sound hheard
    have hknown := hp.known
    rw [soundMeasure, hlength]
    unfold limitedBy
    cases hstop : picture.duration with
    | none =>
      rw [Traits.length?, show picture.traits.duration = none from hstop] at hknown
      exact absurd rfl hknown
    | some stop =>
      rw [Traits.length?, show picture.traits.duration = some stop from hstop] at hknown ⊢
      refine fits_limit hknown ?_
      rw [hm]
      exact Option.some_ne_none m

/-- A part of a clip is bounded when the clip is. -/
lemma trimmed {t : Traits} {input : Clip} {start : Seconds} {stop : Option Seconds}
    (hinput : Bounds input) (hknown : t.length? ≠ none)
    (hcut : t.length? = cutLength start stop input.traits.length?)
    (hpicture : t.hasPicture = input.hasPicture) (hsound : t.hasSound = input.hasSound) :
    Bounds (.trimmed t input start stop) := by
  refine ⟨hknown, fun hseen => ?_, fun hheard => ?_⟩
  · rw [pictureMeasure, hinput.picture (hpicture.symm.trans hseen)]
    exact hcut.symm
  · rw [soundMeasure, show (Clip.trimmed t input start stop).traits.length? = t.length? from rfl,
      hcut]
    exact fits_cutLength (hinput.sound (hsound.symm.trans hheard)) (hcut ▸ hknown)

end Bounds

/-- As long as recorded lengths are exact, the picture of a coherent clip lasts as long as it is
recorded, and its sound no longer. -/
theorem bounds_of_exact (hc : c.Coherent) (hexact : Exact c) : Bounds c := by
  induction hc with
  | image path duration size =>
    cases hexact with
    | source hknown => exact ⟨hknown, fun _ => rfl, fun hheard => (nomatch hheard)⟩
  | video path limit probed hasSound size =>
    cases hexact with
    | source hknown => exact ⟨hknown, fun _ => rfl, fun _ => fits_self hknown⟩
  | audio path limit probed =>
    cases hexact with
    | source hknown => exact ⟨hknown, fun hseen => (nomatch hseen), fun _ => fits_self hknown⟩
  | @resized input width height hinput hpicture ih =>
    cases hexact with
    | resized hbelow =>
      obtain ⟨hknown, hseen, hheard⟩ := ih hbelow
      refine ⟨hknown, fun _ => ?_, hheard⟩
      rw [pictureMeasure, hseen hpicture]
      split <;> rfl
  | framed margin color opacity hinput hpicture ih =>
    cases hexact with
    | framed hbelow =>
      obtain ⟨hknown, hseen, hheard⟩ := ih hbelow
      refine ⟨hknown, fun _ => ?_, hheard⟩
      rw [pictureMeasure, hseen hpicture]
      rfl
  | placed offset hinput hpicture ih =>
    cases hexact with
    | placed hbelow =>
      obtain ⟨hknown, hseen, hheard⟩ := ih hbelow
      exact ⟨hknown, hseen, hheard⟩
  | joined hparts hpictures ih =>
    cases hexact with
    | joined hbelow hsum =>
      refine Bounds.joined (fun c hc => ih c hc (hbelow c hc)) hsum fun hpicture => ?_
      exact List.forall_mem_cons.2 ⟨hpicture, fun c hc => (hpictures c hc).trans hpicture⟩
  | layered size hlayers hsome ih =>
    cases hexact with
    | layered hbelow => exact Bounds.layered (fun c hc => ih c hc (hbelow c hc)) hsome rfl rfl
  | scored hpicture hsound hseen hheard ihp ihs =>
    cases hexact with
    | scored hp hs => exact Bounds.scored (ihp hp) (ihs hs) hseen hheard rfl
  | trimmed begins stop hinput hstop hstart ih =>
    cases hexact with
    | trimmed hbelow hknown hcut => exact Bounds.trimmed (ih hbelow) hknown hcut rfl rfl

/-! ### Segments of a sequence -/

/-- The lengths of the sound and the picture of each segment of a sequence are related, in the order
in which the graph joins the segments. -/
def Segmentwise (R : Option Int → Option Int → Prop) (ls : List Leaf) (g : Filtergraph) : Prop :=
  ∃ pictures sounds, FedTo g .picture pictures ∧ FedTo g .sound sounds ∧
    List.Forall₂ (fun picture sound => ∃ l s, Measures lengthGauge ls g picture l ∧
      Measures lengthGauge ls g sound s ∧ R s l) pictures sounds

/-- In each segment, picture and sound last equally long. -/
def Aligned (ls : List Leaf) (g : Filtergraph) : Prop :=
  Segmentwise (fun s l => s ≠ none ∧ s = l) ls g

variable {R : Option Int → Option Int → Prop} {ls : List Leaf} {g : Filtergraph} {t : Traits}

/-- Streams that measure what parts do are related when the parts are. -/
lemma forall₂_measures_iff (hg : Linear g) {pictures sounds : List Label}
    (hpictures : List.Forall₂ (Measures lengthGauge ls g) pictures
      (cs.map (pictureMeasure lengthGauge)))
    (hsounds : List.Forall₂ (Measures lengthGauge ls g) sounds
      (cs.map (trackMeasure lengthGauge))) :
    List.Forall₂ (fun picture sound => ∃ l s, Measures lengthGauge ls g picture l ∧
        Measures lengthGauge ls g sound s ∧ R s l) pictures sounds ↔
      ∀ c ∈ cs, R (trackMeasure lengthGauge c) (pictureMeasure lengthGauge c) := by
  induction cs generalizing pictures sounds with
  | nil =>
    cases hpictures
    cases hsounds
    simp
  | cons c cs ih =>
    cases hpictures with
    | cons hpicture hpictures =>
      cases hsounds with
      | cons hsound hsounds =>
        rw [List.forall₂_cons, List.forall_mem_cons, ih hpictures hsounds]
        refine and_congr_left' ⟨fun ⟨l, s, hl, hs, h⟩ => ?_, fun h => ⟨_, _, hpicture, hsound, h⟩⟩
        rwa [hg.measures_unique hpicture hl, hg.measures_unique hsound hs]

/-- The segments of a coherent sequence are related when the sound tracks and the pictures of its
parts are. -/
lemma segmentwise_iff (hc : (Clip.joined t cs).Coherent) (hg : ofClip (.joined t cs) = .ok g)
    (hpicture : t.hasPicture = true) (hsound : t.hasSound = true) :
    Segmentwise R (openedLeaves (.joined t cs)) g ↔
      ∀ c ∈ cs, R (trackMeasure lengthGauge c) (pictureMeasure lengthGauge c) := by
  have hlinear : Linear g := linear_ofClip hg
  obtain ⟨pictures, sounds, hfed, hfed', hpictures, hsounds⟩ :=
    segments_ofClip lengthGauge hc hg hpicture hsound
  rw [← forall₂_measures_iff hlinear hpictures hsounds]
  constructor
  · rintro ⟨pictures', sounds', hp, hs, h⟩
    rwa [hlinear.fedTo_unique hfed hp, hlinear.fedTo_unique hfed' hs]
  · exact fun h => ⟨pictures, sounds, hfed, hfed', h⟩

/-- The sound track of a bounded part lasts as long as its picture unless it has a sound of another
length. -/
lemma track_eq_iff_of_bounds (h : Bounds c) (hpicture : c.hasPicture = true) :
    (trackMeasure lengthGauge c ≠ none ∧
        trackMeasure lengthGauge c = pictureMeasure lengthGauge c) ↔
      (c.hasSound = true → soundMeasure lengthGauge c = c.traits.length?) := by
  rw [h.picture hpicture]
  unfold trackMeasure filledBy
  split
  · rename_i hsound
    refine ⟨fun heq _ => heq.2, fun heq => ⟨?_, heq hsound⟩⟩
    rw [heq hsound]
    exact h.known
  · rename_i hsilent
    rw [apply_silence]
    exact iff_of_true ⟨h.known, rfl⟩ fun hsound => absurd hsound hsilent

/-- Picture and sound of a sequence that is obtained are aligned exactly when the sound track of
each part lasts as long as its picture.  As long as recorded lengths are exact, no sound lasts
longer than its picture, and only a part whose sound is shorter spoils it. -/
theorem aligned_iff_of_obtained {h : Host} {o : RenderOptions}
    (hc : Renderer.Obtained h o (.joined t cs)) (hg : ofClip (.joined t cs) = .ok g)
    (hpicture : t.hasPicture = true) (hsound : t.hasSound = true) :
    g.inputs = (openedLeaves (.joined t cs)).map Leaf.input ∧
    (Aligned (openedLeaves (.joined t cs)) g ↔ ∀ c ∈ cs, trackMeasure lengthGauge c ≠ none ∧
      trackMeasure lengthGauge c = pictureMeasure lengthGauge c) ∧
    ((∀ c ∈ cs, Exact c) →
      Segmentwise Fits (openedLeaves (.joined t cs)) g ∧
      (Aligned (openedLeaves (.joined t cs)) g ↔
        ∀ c ∈ cs, c.hasSound = true → soundMeasure lengthGauge c = c.traits.length?)) := by
  have haligned : Aligned (openedLeaves (.joined t cs)) g ↔ _ :=
    segmentwise_iff hc.coherent hg hpicture hsound
  refine ⟨inputs_ofClip hg, haligned, fun hexact => ?_⟩
  obtain ⟨hparts, hseen⟩ := parts_of_coherent hc.coherent
  have hbounds : ∀ c ∈ cs, Bounds c := fun c hmem => bounds_of_exact (hparts c hmem) (hexact c hmem)
  constructor
  · refine (segmentwise_iff hc.coherent hg hpicture hsound).2 fun c hmem => ?_
    rw [(hbounds c hmem).picture (hseen hpicture c hmem)]
    exact (hbounds c hmem).track
  · rw [haligned]
    exact forall₂_congr fun c hmem =>
      track_eq_iff_of_bounds (hbounds c hmem) (hseen hpicture c hmem)

open Renderer

/-- A video file played for a number of seconds, with its sound or without it. -/
def footage (seconds : Nat) (hasSound : Bool) : Clip :=
  .ofSource .video ⟨"talk.mp4"⟩ (some (.ofNat seconds)) (some (.ofNat seconds)) hasSound
    (some ⟨4, 3⟩)

/-- The sound of that file, played for a number of seconds. -/
def song (seconds : Nat) : Clip :=
  .ofSource .audio ⟨"talk.mp4"⟩ (some (.ofNat seconds)) (some (.ofNat seconds)) true none

/-- A silent picture of 10 seconds with a sound of some seconds. -/
def trailer (seconds : Nat) : Clip :=
  .scored { (footage 10 false).traits with hasSound := true } (footage 10 false) (song seconds)

/-- A clip and after it a picture of 5 seconds with its own sound. -/
def programme (first : Clip) : Clip :=
  .joined ⟨true, true, Seconds.sumKnown [first.duration, (footage 5 true).duration], first.size,
    .origin⟩ [first, footage 5 true]

/-- The video file can be opened for a number of seconds. -/
lemma obtained_footage (seconds : Nat) (hasSound : Bool) :
    Obtained .standard rehearsal (footage seconds hasSound) := by
  obtain ⟨content, hcontent, hprobe⟩ := exists_probe_talk
  have hclip : videoClip ⟨.video, ⟨"talk.mp4"⟩, some (.ofNat seconds), hasSound⟩
      ⟨some .zero, some ⟨4, 3⟩, true, true⟩ = .ok (footage seconds hasSound) := by
    refine videoClip_eq_ok.2 ⟨rfl, ?_⟩
    rw [Bool.and_true]
    rfl
  refine @Obtained.made _ _ (.source ⟨.video, ⟨"talk.mp4"⟩, some (.ofNat seconds), hasSound⟩) studio
    _ (fun d hd => nomatch hd) (openSource_eq_ok.2 ⟨content, hcontent, ?_⟩)
  exact openFile_eq_ok.2 (.inr ⟨_, hprobe, .inl ⟨rfl, hclip⟩⟩)

/-- The sound of the file can be opened. -/
lemma obtained_song (seconds : Nat) : Obtained .standard rehearsal (song seconds) := by
  obtain ⟨content, hcontent, hprobe⟩ := exists_probe_talk
  refine @Obtained.made _ _ (.source ⟨.audio, ⟨"talk.mp4"⟩, some (.ofNat seconds), true⟩) studio
    _ (fun d hd => nomatch hd) (openSource_eq_ok.2 ⟨content, hcontent, ?_⟩)
  exact openFile_eq_ok.2 (.inr ⟨_, hprobe, .inr ⟨rfl, audioClip_eq_ok.2 ⟨rfl, rfl⟩⟩⟩)

/-- The sound can be attached to the picture. -/
lemma obtained_trailer (seconds : Nat) : Obtained .standard rehearsal (trailer seconds) := by
  refine @Obtained.made _ _ (.attachAudio (footage 10 false) (song seconds)) studio _ ?_
    (pureReply_eq_ok.2 rfl)
  simp [Recipe.clips, obtained_footage, obtained_song]

/-- A further picture can be put behind. -/
lemma obtained_programme {first : Clip} (h : Obtained .standard rehearsal first)
    (hpicture : first.hasPicture = true) : Obtained .standard rehearsal (programme first) := by
  refine @Obtained.made _ _ (.concatenate [first, footage 5 true]) studio _ ?_
    (pureReply_eq_ok.2 (Clip.concatenate_eq_ok.2 ⟨first, [footage 5 true], rfl, ?_, ?_⟩))
  · simp [Recipe.clips, h, obtained_footage]
  · exact List.forall_mem_singleton.2 hpicture.symm
  · have hsound : [first, footage 5 true].any Clip.hasSound = true :=
      List.any_eq_true.2 ⟨footage 5 true, by simp, rfl⟩
    rw [hpicture, hsound]
    rfl

/-- A picture without sound is given silence of its length. -/
theorem aligned_of_silent : ∃ g, ofClip (programme (footage 10 false)) = .ok g ∧
    Aligned (openedLeaves (programme (footage 10 false))) g := by
  have hexact : ∀ c ∈ [footage 10 false, footage 5 true], Exact c := by
    refine List.forall_mem_cons.2 ⟨.source ?_, List.forall_mem_singleton.2 (.source ?_)⟩ <;>
      decide +kernel
  refine ⟨_, rfl, ((aligned_iff_of_obtained (obtained_programme (obtained_footage 10 false) rfl) rfl
    rfl rfl).2.2 hexact).2.2 ?_⟩
  exact List.forall_mem_cons.2 ⟨fun hsound => (nomatch hsound),
    List.forall_mem_singleton.2 fun _ => soundMeasure_source _ _ _ _⟩

/-- A picture of 10 seconds with a sound of 4 seconds makes the next sound come too early. -/
theorem not_aligned_of_short : ∃ g, ofClip (programme (trailer 4)) = .ok g ∧
    pictureMeasure lengthGauge (trailer 4) = Seconds.ticks? (.ofNat 10) ∧
    trackMeasure lengthGauge (trailer 4) = Seconds.ticks? (.ofNat 4) ∧
    ¬ Aligned (openedLeaves (programme (trailer 4))) g := by
  have hpicture : pictureMeasure lengthGauge (trailer 4) = Seconds.ticks? (.ofNat 10) := by
    decide +kernel
  have hsound : trackMeasure lengthGauge (trailer 4) = Seconds.ticks? (.ofNat 4) := by
    decide +kernel
  have hshort : Seconds.ticks? (.ofNat 4) ≠ Seconds.ticks? (.ofNat 10) := by decide +kernel
  refine ⟨_, rfl, hpicture, hsound, fun haligned => hshort ?_⟩
  have hparts := (segmentwise_iff (obtained_programme (obtained_trailer 4) rfl).coherent rfl rfl
    rfl).1 haligned
  rw [← hpicture, ← hsound]
  exact (hparts (trailer 4) List.mem_cons_self).2

end Filtergraph

end Montage
