import Mathlib.Tactic.ByContra
import Montage.Filtergraph.Assembly
import Montage.Proofs.Outcome

/-!
# Walks that succeed

A walk over a clip succeeds exactly when the walks over the clips below it do, and then it adds one
fixed step to what they add.  The first section says this once for each kind of node, as an
equivalence; later proofs cite these laws and never open `assemble` itself.

The second section says which streams a walk gives: none that was not demanded
(`given_le_of_assemble`).
-/

namespace Montage.Filtergraph

variable {t : Traits} {d : Demand} {start : Cursor} {f : Fragment}

/-! ### One law for each kind of node -/

-- The equations of the walk are worked out here, once and before the laws that rest on them.
attribute [local simp] assemble assembleParts assembleLayers

/-- The walk over a source gives the pads of one new input. -/
lemma assemble_source_eq_ok {medium : Medium} {path : Path} {limit : Option Seconds} :
    assemble (.source t medium path limit) d start = .ok f ↔
      f = sourceFragment (d.within t) medium path limit start := by
  simp only [assemble, Except.ok.injEq, eq_comm]

/-- The walk over a resized clip scales what the walk over its input gives. -/
lemma assemble_resized_eq_ok {input : Clip} {width height : Option UInt32} :
    assemble (.resized t input width height) d start = .ok f ↔
      ∃ g, assemble input (d.within t) start = .ok g ∧ f = scaleFragment width height start g := by
  simp only [assemble, bind_eq_ok, pure_eq_ok]

/-- The walk over a framed clip puts a border around what the walk over its input gives. -/
lemma assemble_framed_eq_ok {input : Clip} {margin : UInt32} {color : Color} {opacity : UInt32} :
    assemble (.framed t input margin color opacity) d start = .ok f ↔
      ∃ g, assemble input (d.within t) start = .ok g ∧
        f = g.viaPicture start (.pad margin color opacity) := by
  simp only [assemble, bind_eq_ok, pure_eq_ok]

/-- The walk over a placed clip is the walk over its input. -/
lemma assemble_placed {input : Clip} :
    assemble (.placed t input) d start = assemble input (d.within t) start := by
  rw [assemble]

/-- The walk over a sequence joins what the walks over its parts give. -/
lemma assemble_joined_eq_ok {parts : List Clip} :
    assemble (.joined t parts) d start = .ok f ↔
      ∃ b, assembleParts parts (d.within t) start = .ok b ∧
        f = joinBundle (d.within t) start b := by
  simp only [assemble, bind_eq_ok, pure_eq_ok]

/-- Silence is put where sound is demanded and there is none. -/
lemma fillSilence_eq_ok {duration : Option Seconds} {f' : Fragment} :
    fillSilence d duration start f = .ok f' ↔
      (d.sound = true ∧ f.sound = none ∧ ∃ s, duration = some s ∧
        f' = f.withSound start [] (.silence s)) ∨
      ((d.sound = true → f.sound.isSome = true) ∧ f' = f) := by
  unfold fillSilence
  cases d.sound <;> cases f.sound <;> cases duration <;> simp [eq_comm]

/-- A canvas is there where a picture is demanded, and it is as long as the composition. -/
lemma canvasFragment_eq_ok {size : Canvas} {duration : Option Seconds} {canvas : Fragment} :
    canvasFragment d size duration start = .ok canvas ↔
      (d.picture = true ∧ ∃ s, duration = some s ∧
        canvas = Fragment.empty.withPicture start [] (.black size s)) ∨
      (d.picture = false ∧ canvas = .empty) := by
  unfold canvasFragment
  cases d.picture <;> cases duration <;> simp [eq_comm]

/-- The walk over a composition stacks its layers on a canvas and mixes their sounds. -/
lemma assemble_layered_eq_ok {layers : List Clip} {size : Canvas} :
    assemble (.layered t layers size) d start = .ok f ↔
      ∃ canvas stack sounds, canvasFragment (d.within t) size t.duration start = .ok canvas ∧
        assembleLayers layers (d.within t) canvas.picture (canvas.after start) =
          .ok (stack, sounds) ∧
        f = mixSounds (d.within t) start sounds (canvas.append stack stack.picture none) := by
  simp only [assemble, bind_eq_ok, pure_eq_ok, Prod.exists]
  constructor
  · rintro ⟨canvas, hcanvas, stack, sounds, hlayers, rfl⟩
    exact ⟨canvas, stack, sounds, hcanvas, hlayers, rfl⟩
  · rintro ⟨canvas, stack, sounds, hcanvas, hlayers, rfl⟩
    exact ⟨canvas, hcanvas, stack, sounds, hlayers, rfl⟩

/-- The walk over a clip whose stream may not be demanded; then it adds nothing. -/
def assembleIf (demanded : Bool) (c : Clip) (d : Demand) (start : Cursor) :
    Except Fault Fragment :=
  if demanded then assemble c d start else .ok .empty

/-- A stream that is not demanded adds nothing, and one that is demanded needs a walk. -/
lemma assembleIf_eq_ok {demanded : Bool} {c : Clip} :
    assembleIf demanded c d start = .ok f ↔
      (demanded = true ∧ assemble c d start = .ok f) ∨ (demanded = false ∧ f = .empty) := by
  cases demanded <;> simp [assembleIf, eq_comm]

/-- The walk over a scored clip is the walks over two clips whose streams may not be demanded. -/
lemma assemble_scored {picture sound : Clip} :
    assemble (.scored t picture sound) d start = (do
      let p ← assembleIf (d.within t).picture picture .pictureOnly start
      let s ← assembleIf (d.within t).sound sound .soundOnly (p.after start)
      return p.append (limitSound picture.duration (p.after start) s) p.picture
        (limitSound picture.duration (p.after start) s).sound) := by
  unfold assembleIf
  rw [assemble]
  cases (d.within t).picture <;> cases (d.within t).sound <;> rfl

/-- The walk over a scored clip takes the picture of one clip and the sound of the other, which ends
with the picture. -/
lemma assemble_scored_eq_ok {picture sound : Clip} :
    assemble (.scored t picture sound) d start = .ok f ↔
      ∃ p s, assembleIf (d.within t).picture picture .pictureOnly start = .ok p ∧
        assembleIf (d.within t).sound sound .soundOnly (p.after start) = .ok s ∧
        f = p.append (limitSound picture.duration (p.after start) s) p.picture
          (limitSound picture.duration (p.after start) s).sound := by
  simp only [assemble_scored, bind_eq_ok, pure_eq_ok]
  constructor
  · rintro ⟨p, hp, s, hs, rfl⟩
    exact ⟨p, s, hp, hs, rfl⟩
  · rintro ⟨p, s, hp, hs, rfl⟩
    exact ⟨p, hp, s, hs, rfl⟩

/-- The walk over a trimmed clip cuts both streams of its input. -/
lemma assemble_trimmed_eq_ok {input : Clip} {begins : Seconds} {stop : Option Seconds} :
    assemble (.trimmed t input begins stop) d start = .ok f ↔
      ∃ g, assemble input (d.within t) start = .ok g ∧
        f = (g.viaPicture start (.trim .picture begins stop)).viaSound start
          (.trim .sound begins stop) := by
  simp only [assemble, bind_eq_ok, pure_eq_ok]

/-- The walk over no parts adds nothing. -/
lemma assembleParts_nil_eq_ok {b : Bundle} :
    assembleParts [] d start = .ok b ↔ b = .empty := by
  simp only [assembleParts, Except.ok.injEq, eq_comm]

/-- The walk over parts takes the first one, with silence where it has no sound, and then the
rest. -/
lemma assembleParts_cons_eq_ok {c : Clip} {cs : List Clip} {b : Bundle} :
    assembleParts (c :: cs) d start = .ok b ↔
      ∃ g f rest, assemble c d start = .ok g ∧ fillSilence d c.duration start g = .ok f ∧
        assembleParts cs d (f.after start) = .ok rest ∧
        b = .cons f f.picture.toList f.sound.toList rest := by
  simp only [assembleParts, bind_eq_ok, pure_eq_ok]
  constructor
  · rintro ⟨g, hg, f, hf, rest, hrest, rfl⟩
    exact ⟨g, f, rest, hg, hf, hrest, rfl⟩
  · rintro ⟨g, f, rest, hg, hf, hrest, rfl⟩
    exact ⟨g, hg, f, hf, rest, hrest, rfl⟩

/-- The walk over no layers leaves the picture below as it is. -/
lemma assembleLayers_nil_eq_ok {below : Option Label} {stack : Fragment} {sounds : List Label} :
    assembleLayers [] d below start = .ok (stack, sounds) ↔
      stack = { Fragment.empty with picture := below } ∧ sounds = [] := by
  simp only [assembleLayers, Except.ok.injEq, Prod.mk.injEq, eq_comm]

/-- The walk over layers puts the lowest one on the picture below, and the others on top. -/
lemma assembleLayers_cons_eq_ok {c : Clip} {cs : List Clip} {below : Option Label}
    {stack : Fragment} {sounds : List Label} :
    assembleLayers (c :: cs) d below start = .ok (stack, sounds) ↔
      ∃ g f upper others, assemble c d start = .ok g ∧ f = overlayFragment below c.offset start g ∧
        assembleLayers cs d f.picture (f.after start) = .ok (upper, others) ∧
        stack = f.append upper upper.picture none ∧ sounds = f.sound.toList ++ others := by
  simp only [assembleLayers, bind_eq_ok, pure_eq_ok, Prod.exists, Prod.mk.injEq]
  constructor
  · rintro ⟨g, hg, upper, others, hupper, rfl, rfl⟩
    exact ⟨g, _, upper, others, hg, rfl, hupper, rfl, rfl⟩
  · rintro ⟨g, f, upper, others, hg, rfl, hupper, rfl, rfl⟩
    exact ⟨g, hg, upper, others, hupper, rfl, rfl⟩

/-- The chains that give the streams of a fragment the labels under which they leave the graph. -/
def Fragment.exits (f : Fragment) : List Chain :=
  (f.picture.map (exit .picture)).toList ++ (f.sound.map (exit .sound)).toList

/-- The graph of a fragment: its chains, and those by which its streams leave. -/
def Fragment.close (f : Fragment) : Filtergraph where
  inputs := f.inputs
  chains := f.chains ++ f.exits
  picture := f.picture.map fun _ => .final .picture
  sound := f.sound.map fun _ => .final .sound

/-- The graph of a clip is that of the fragment of a walk from the beginning. -/
lemma ofClip_eq_ok {c : Clip} {g : Filtergraph} :
    ofClip c = .ok g ↔
      ∃ f, assemble c ⟨c.hasPicture, c.hasSound⟩ ⟨0, 0⟩ = .ok f ∧ g = f.close := by
  simp only [ofClip, bind_eq_ok, pure_eq_ok, Fragment.close, Fragment.exits, List.append_assoc]

/-! ### Streams that a walk gives -/

namespace Demand

/-- A demand is within another one when it asks for nothing more. -/
instance : LE Demand :=
  ⟨fun d e => (d.picture = true → e.picture = true) ∧ (d.sound = true → e.sound = true)⟩

/-- A demand within one that is within a third is within the third. -/
lemma le_trans {d e g : Demand} (hde : d ≤ e) (heg : e ≤ g) : d ≤ g :=
  ⟨fun hd => heg.1 (hde.1 hd), fun hd => heg.2 (hde.2 hd)⟩

/-- The part of a demand that a clip can meet is within the demand. -/
lemma within_le (d : Demand) (t : Traits) : d.within t ≤ d := by
  constructor
  · intro hp
    exact (Bool.and_eq_true_iff.1 hp).1
  · intro hs
    exact (Bool.and_eq_true_iff.1 hs).1

end Demand

namespace Fragment

/-- The streams that a fragment gives. -/
def given (f : Fragment) : Demand := ⟨f.picture.isSome, f.sound.isSome⟩

/-- A fragment gives no picture that is not demanded. -/
lemma picture_eq_none {f : Fragment} {d : Demand} (h : f.given ≤ d) (hd : d.picture = false) :
    f.picture = none := by
  by_contra hne
  have hp : d.picture = true := h.1 (Option.isSome_iff_ne_none.2 hne)
  exact Bool.false_ne_true (hd.symm.trans hp)

/-- A fragment gives no sound that is not demanded. -/
lemma sound_eq_none {f : Fragment} {d : Demand} (h : f.given ≤ d) (hd : d.sound = false) :
    f.sound = none := by
  by_contra hne
  have hs : d.sound = true := h.2 (Option.isSome_iff_ne_none.2 hne)
  exact Bool.false_ne_true (hd.symm.trans hs)

/-- Passing a picture through a filter keeps the streams that there are. -/
@[simp] lemma given_viaPicture (f : Fragment) (start : Cursor) (filter : Filter) :
    (f.viaPicture start filter).given = f.given := by
  unfold viaPicture given
  cases hp : f.picture with
  | none => rw [hp]
  | some label => rfl

/-- Passing a sound through a filter keeps the streams that there are. -/
@[simp] lemma given_viaSound (f : Fragment) (start : Cursor) (filter : Filter) :
    (f.viaSound start filter).given = f.given := by
  unfold viaSound given
  cases hs : f.sound with
  | none => rw [hs]
  | some label => rfl

end Fragment

/-- Scaling keeps the streams that there are. -/
@[simp] lemma given_scaleFragment (width height : Option UInt32) (start : Cursor) (f : Fragment) :
    (scaleFragment width height start f).given = f.given := by
  unfold scaleFragment
  split
  · rfl
  · exact f.given_viaPicture start _

/-- Ending a sound early keeps the streams that there are. -/
@[simp] lemma given_limitSound (duration : Option Seconds) (start : Cursor) (f : Fragment) :
    (limitSound duration start f).given = f.given := by
  unfold limitSound
  cases duration with
  | none => rfl
  | some duration => exact f.given_viaSound start _

/-- A source gives the streams that are demanded of it. -/
@[simp] lemma given_sourceFragment (d : Demand) (medium : Medium) (path : Path)
    (limit : Option Seconds) (start : Cursor) :
    (sourceFragment d medium path limit start).given = d := by
  obtain ⟨picture, sound⟩ := d
  cases picture <;> cases sound <;> rfl

/-- A sequence gives the streams that are demanded of it. -/
@[simp] lemma given_joinBundle (d : Demand) (start : Cursor) (b : Bundle) :
    (joinBundle d start b).given = d := by
  obtain ⟨picture, sound⟩ := d
  cases picture <;> cases sound <;> rfl

/-- A layer lies on a picture exactly when there is one below it. -/
lemma isSome_overlayFragment (below : Option Label) (offset : Placement) (start : Cursor)
    (f : Fragment) : (overlayFragment below offset start f).picture.isSome = below.isSome := by
  unfold overlayFragment
  split <;> rfl

/-- Layers make a picture exactly when there is one below them. -/
lemma isSome_assembleLayers {cs : List Clip} {below : Option Label} {start : Cursor}
    {stack : Fragment} {sounds : List Label}
    (h : assembleLayers cs d below start = .ok (stack, sounds)) :
    stack.picture.isSome = below.isSome := by
  induction cs generalizing below start stack sounds with
  | nil =>
    obtain ⟨rfl, -⟩ := assembleLayers_nil_eq_ok.1 h
    rfl
  | cons c cs ih =>
    obtain ⟨g, f, upper, others, -, rfl, hupper, rfl, -⟩ := assembleLayers_cons_eq_ok.1 h
    exact (ih hupper).trans (isSome_overlayFragment below c.offset start g)

/-- A canvas is there exactly when a picture is demanded, and it has no sound. -/
lemma streams_canvasFragment {size : Canvas} {duration : Option Seconds} {canvas : Fragment}
    (h : canvasFragment d size duration start = .ok canvas) :
    canvas.picture.isSome = d.picture ∧ canvas.sound = none := by
  rcases canvasFragment_eq_ok.1 h with ⟨hdemanded, s, -, rfl⟩ | ⟨hidden, rfl⟩
  · exact ⟨hdemanded.symm, rfl⟩
  · exact ⟨hidden.symm, rfl⟩

/-- Mixing sounds gives a sound exactly when it is demanded. -/
lemma given_mixSounds (d : Demand) (start : Cursor) (sounds : List Label) {f : Fragment}
    (h : f.sound = none) : (mixSounds d start sounds f).given = ⟨f.picture.isSome, d.sound⟩ := by
  unfold mixSounds
  split
  · split <;> simp_all [Fragment.given, Fragment.withSound, Fragment.emit]
  · simp_all [Fragment.given]

/-- A walk gives no stream that is not demanded. -/
lemma given_le_of_assemble {c : Clip} (h : assemble c d start = .ok f) : f.given ≤ d := by
  induction c generalizing d start f with
  | source t medium path limit =>
    rw [assemble_source_eq_ok.1 h, given_sourceFragment]
    exact d.within_le t
  | resized t input width height ih =>
    obtain ⟨g, hg, rfl⟩ := assemble_resized_eq_ok.1 h
    rw [given_scaleFragment]
    exact Demand.le_trans (ih hg) (d.within_le t)
  | framed t input margin color opacity ih =>
    obtain ⟨g, hg, rfl⟩ := assemble_framed_eq_ok.1 h
    rw [Fragment.given_viaPicture]
    exact Demand.le_trans (ih hg) (d.within_le t)
  | placed t input ih =>
    rw [assemble_placed] at h
    exact Demand.le_trans (ih h) (d.within_le t)
  | joined t parts ih =>
    obtain ⟨b, -, rfl⟩ := assemble_joined_eq_ok.1 h
    rw [given_joinBundle]
    exact d.within_le t
  | layered t layers size ih =>
    obtain ⟨canvas, stack, sounds, hcanvas, hlayers, rfl⟩ := assemble_layered_eq_ok.1 h
    have hstack : stack.picture.isSome = (d.within t).picture :=
      (isSome_assembleLayers hlayers).trans (streams_canvasFragment hcanvas).1
    rw [given_mixSounds _ _ _ rfl]
    exact Demand.le_trans (e := d.within t) ⟨fun hp => hstack ▸ hp, id⟩ (d.within_le t)
  | scored t picture sound ihp ihs =>
    obtain ⟨p, s, hp, hs, rfl⟩ := assemble_scored_eq_ok.1 h
    have hsound : (limitSound picture.duration (p.after start) s).sound.isSome = s.sound.isSome :=
      congrArg Demand.sound (given_limitSound picture.duration (p.after start) s)
    refine Demand.le_trans (e := d.within t) ⟨fun hgiven => ?_, fun hgiven => ?_⟩ (d.within_le t)
    · rcases assembleIf_eq_ok.1 hp with ⟨hdemanded, -⟩ | ⟨-, rfl⟩
      · exact hdemanded
      · exact absurd hgiven Bool.false_ne_true
    · rcases assembleIf_eq_ok.1 hs with ⟨hdemanded, -⟩ | ⟨-, rfl⟩
      · exact hdemanded
      · exact absurd (hsound.symm.trans hgiven) Bool.false_ne_true
  | trimmed t input begins stop ih =>
    obtain ⟨g, hg, rfl⟩ := assemble_trimmed_eq_ok.1 h
    rw [Fragment.given_viaSound, Fragment.given_viaPicture]
    exact Demand.le_trans (ih hg) (d.within_le t)

end Montage.Filtergraph
