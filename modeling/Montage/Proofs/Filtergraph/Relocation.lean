import Montage.Proofs.Filtergraph.Drawing

/-!
# Moving graphs

A walk from a cursor gives what the walk from the beginning gives, with all its labels moved past
the inputs and labels that there are already (`assemble_moved`).  Each step of the walk passes
moving on, and the induction over the clip is for every start, because the later parts of a clip
start where the earlier ones end.

For a graph that grows this says that drawing a clip puts the moved inputs and chains of the clip
behind those that are there, and does nothing else (`draw_eq_moved`).
-/

namespace Montage.Filtergraph

/-! ### Moving -/

/-- The cursor with the inputs and labels of another one in front of it. -/
def Cursor.moved (c base : Cursor) : Cursor := ⟨c.inputs + base.inputs, c.labels + base.labels⟩

/-- The name of a stream, with the inputs and labels of a cursor in front. -/
def Label.moved (base : Cursor) : Label → Label
  | .pad input stream => .pad (input + base.inputs) stream
  | .link stream number => .link stream (number + base.labels)
  | .final stream => .final stream

/-- The chain with its labels moved.  What it does to its streams stays. -/
def Chain.moved (base : Cursor) (c : Chain) : Chain :=
  ⟨c.inputs.map (Label.moved base), c.filter, c.output.moved base⟩

/-- The fragment with its labels moved.  The input files stay, and so does the number of labels. -/
def Fragment.moved (base : Cursor) (f : Fragment) : Fragment where
  inputs := f.inputs
  chains := f.chains.map (Chain.moved base)
  issued := f.issued
  picture := f.picture.map (Label.moved base)
  sound := f.sound.map (Label.moved base)

/-- The bundle with its labels moved. -/
def Bundle.moved (base : Cursor) (b : Bundle) : Bundle where
  inputs := b.inputs
  chains := b.chains.map (Chain.moved base)
  issued := b.issued
  pictures := b.pictures.map (Label.moved base)
  sounds := b.sounds.map (Label.moved base)

section

variable {base start : Cursor} {d : Demand}

namespace Fragment

variable {f : Fragment} {stream : Stream} {filter : Filter}

/-- The picture of a moved fragment. -/
lemma picture_moved : (f.moved base).picture = f.picture.map (Label.moved base) := rfl

/-- The sound of a moved fragment. -/
lemma sound_moved : (f.moved base).sound = f.sound.map (Label.moved base) := rfl

/-- Moved fragments are followed by moved cursors. -/
lemma after_moved :
    (f.moved base).after (start.moved base) = (f.after start).moved base := by
  simp only [after, moved, Cursor.moved, Nat.add_right_comm]

/-- Moved fragments are followed by moved labels. -/
lemma next_moved :
    (f.moved base).next (start.moved base) stream = (f.next start stream).moved base := by
  rw [next, after_moved]
  rfl

/-- One more chain between moved labels. -/
lemma emit_moved (f : Fragment) (labels : List Label) :
    (f.moved base).emit (start.moved base) stream (labels.map (Label.moved base)) filter =
      (f.emit start stream labels filter).moved base := by
  simp only [emit, next_moved]
  simp only [moved, Chain.moved, List.map_append, List.map_cons, List.map_nil]

/-- One more picture out of moved streams. -/
lemma withPicture_moved (f : Fragment) (labels : List Label) :
    (f.moved base).withPicture (start.moved base) (labels.map (Label.moved base)) filter =
      (f.withPicture start labels filter).moved base := by
  simp only [withPicture, emit_moved, next_moved]
  rfl

/-- One more sound out of moved streams. -/
lemma withSound_moved (f : Fragment) (labels : List Label) :
    (f.moved base).withSound (start.moved base) (labels.map (Label.moved base)) filter =
      (f.withSound start labels filter).moved base := by
  simp only [withSound, emit_moved, next_moved]
  rfl

/-- Moved pictures are passed through the same filter. -/
lemma viaPicture_moved : (f.moved base).viaPicture (start.moved base) filter =
    (f.viaPicture start filter).moved base := by
  unfold viaPicture
  rw [picture_moved]
  cases f.picture with
  | none => rfl
  | some label => exact f.withPicture_moved [label]

/-- Moved sounds are passed through the same filter. -/
lemma viaSound_moved : (f.moved base).viaSound (start.moved base) filter =
    (f.viaSound start filter).moved base := by
  unfold viaSound
  rw [sound_moved]
  cases f.sound with
  | none => rfl
  | some label => exact f.withSound_moved [label]

/-- Moved fragments one after the other. -/
lemma append_moved (f g : Fragment) (picture sound : Option Label) :
    (f.moved base).append (g.moved base) (picture.map (Label.moved base))
      (sound.map (Label.moved base)) = (f.append g picture sound).moved base := by
  simp only [append, moved, List.map_append]

end Fragment

/-- A moved fragment before a moved bundle. -/
lemma Bundle.cons_moved {f : Fragment} {b : Bundle} :
    Bundle.cons (f.moved base) (f.moved base).picture.toList (f.moved base).sound.toList
      (b.moved base) = (Bundle.cons f f.picture.toList f.sound.toList b).moved base := by
  simp only [Bundle.cons, Bundle.moved, Fragment.moved, Option.toList_map, List.map_append]

/-- A source is named by its place among the inputs. -/
lemma sourceFragment_moved {medium : Medium} {path : Path} {limit : Option Seconds} :
    sourceFragment d medium path limit (start.moved base) =
      (sourceFragment d medium path limit start).moved base := by
  obtain ⟨picture, sound⟩ := d
  cases picture <;> cases sound <;> rfl

/-- Moved pictures are scaled alike. -/
lemma scaleFragment_moved {width height : Option UInt32} {f : Fragment} :
    scaleFragment width height (start.moved base) (f.moved base) =
      (scaleFragment width height start f).moved base := by
  unfold scaleFragment
  rw [Fragment.viaPicture_moved, ← apply_ite (Fragment.moved base)]

/-- Moved parts lack sound alike. -/
lemma fillSilence_moved {duration : Option Seconds} {f : Fragment} :
    fillSilence d duration (start.moved base) (f.moved base) =
      (fillSilence d duration start f).map (Fragment.moved base) := by
  have hsound : (f.moved base).sound.isNone = f.sound.isNone := Option.isNone_map
  unfold fillSilence
  rw [hsound]
  split
  · cases duration with
    | none => rfl
    | some duration => exact congrArg Except.ok (f.withSound_moved [])
  · rfl

/-- Moved parts are joined alike. -/
lemma joinBundle_moved {b : Bundle} :
    joinBundle d (start.moved base) (b.moved base) = (joinBundle d start b).moved base := by
  have hpictures : (b.moved base).pictures = b.pictures.map (Label.moved base) := rfl
  have hsounds : (b.moved base).sounds = b.sounds.map (Label.moved base) := rfl
  have hbundle : (b.moved base).toFragment = b.toFragment.moved base := rfl
  unfold joinBundle
  dsimp only
  rw [hpictures, hsounds, hbundle, List.length_map, List.length_map, Fragment.withPicture_moved,
    ← apply_ite (Fragment.moved base), Fragment.withSound_moved, ← apply_ite (Fragment.moved base)]

/-- The canvas of a composition is as large and as long anywhere. -/
lemma canvasFragment_moved {size : Canvas} {duration : Option Seconds} :
    canvasFragment d size duration (start.moved base) =
      (canvasFragment d size duration start).map (Fragment.moved base) := by
  unfold canvasFragment
  split
  · cases duration with
    | none => rfl
    | some duration => exact congrArg Except.ok (Fragment.empty.withPicture_moved [])
  · rfl

/-- Moved layers are put on a moved picture alike. -/
lemma overlayFragment_moved {below : Option Label} {offset : Placement} {f : Fragment} :
    overlayFragment (below.map (Label.moved base)) offset (start.moved base) (f.moved base) =
      (overlayFragment below offset start f).moved base := by
  unfold overlayFragment
  rw [Fragment.picture_moved]
  cases below with
  | none => rfl
  | some below =>
    cases f.picture with
    | none => rfl
    | some picture => exact f.withPicture_moved [below, picture]

/-- Moved sounds are mixed alike. -/
lemma mixSounds_moved {sounds : List Label} {f : Fragment} :
    mixSounds d (start.moved base) (sounds.map (Label.moved base)) (f.moved base) =
      (mixSounds d start sounds f).moved base := by
  unfold mixSounds
  split
  · rcases sounds with _ | ⟨sound, _ | ⟨second, sounds⟩⟩
    · exact f.withSound_moved []
    · rfl
    · simp only [List.map_cons, List.length_cons, List.length_map]
      exact f.withSound_moved (sound :: second :: sounds)
  · rfl

/-- Moved sounds end alike. -/
lemma limitSound_moved {duration : Option Seconds} {f : Fragment} :
    limitSound duration (start.moved base) (f.moved base) =
      (limitSound duration start f).moved base := by
  cases duration with
  | none => rfl
  | some duration => exact Fragment.viaSound_moved

end

/-! ### The walk -/

/-- With the inputs and labels of `base` in front of its start, the walk over a clip gives what it
gives without them, moved past them. -/
def Movable (base : Cursor) (c : Clip) : Prop :=
  ∀ d start, assemble c d (start.moved base) = (assemble c d start).map (Fragment.moved base)

section

variable {base : Cursor} {cs : List Clip}

/-- A walk that may not be demanded passes moving on. -/
lemma assembleIf_moved {c : Clip} (h : Movable base c) (demanded : Bool) (d : Demand)
    (start : Cursor) : assembleIf demanded c d (start.moved base) =
      (assembleIf demanded c d start).map (Fragment.moved base) := by
  cases demanded with
  | false => rfl
  | true => exact h d start

/-- The walk over parts passes moving on. -/
lemma assembleParts_moved (h : ∀ c ∈ cs, Movable base c) (d : Demand) (start : Cursor) :
    assembleParts cs d (start.moved base) =
      (assembleParts cs d start).map (Bundle.moved base) := by
  induction cs generalizing start with
  | nil =>
    rw [assembleParts, assembleParts]
    rfl
  | cons c cs ih =>
    obtain ⟨hc, hcs⟩ := List.forall_mem_cons.1 h
    rw [assembleParts, assembleParts, hc d start]
    refine map_bind_map fun g => ?_
    rw [fillSilence_moved]
    refine map_bind_map fun f => ?_
    rw [Fragment.after_moved, ih hcs]
    exact map_bind_map fun rest => congrArg Except.ok Bundle.cons_moved

/-- The walk over layers passes moving on, with the picture below them. -/
lemma assembleLayers_moved (h : ∀ c ∈ cs, Movable base c) (d : Demand) (below : Option Label)
    (start : Cursor) :
    assembleLayers cs d (below.map (Label.moved base)) (start.moved base) =
      (assembleLayers cs d below start).map
        (Prod.map (Fragment.moved base) (List.map (Label.moved base))) := by
  induction cs generalizing below start with
  | nil =>
    rw [assembleLayers, assembleLayers]
    rfl
  | cons c cs ih =>
    obtain ⟨hc, hcs⟩ := List.forall_mem_cons.1 h
    rw [assembleLayers, assembleLayers, hc d start]
    refine map_bind_map fun g => ?_
    rw [overlayFragment_moved]
    dsimp only
    rw [Fragment.picture_moved, Fragment.after_moved, ih hcs]
    refine map_bind_map fun stack => congrArg Except.ok (Prod.ext ?_ ?_)
    · exact Fragment.append_moved _ _ _ none
    · simp only [Prod.map_snd, Fragment.sound_moved, Option.toList_map, List.map_append]

/-- The walk over any clip passes moving on. -/
lemma assemble_moved (base : Cursor) (c : Clip) : Movable base c := by
  induction c with
  | source t medium path limit =>
    intro d start
    rw [assemble, assemble, sourceFragment_moved]
    rfl
  | resized t input width height ih =>
    intro d start
    rw [assemble, assemble, ih]
    exact map_bind_map fun f => congrArg Except.ok scaleFragment_moved
  | framed t input margin color opacity ih =>
    intro d start
    rw [assemble, assemble, ih]
    exact map_bind_map fun f => congrArg Except.ok Fragment.viaPicture_moved
  | placed t input ih =>
    intro d start
    rw [assemble, assemble, ih]
  | joined t parts ih =>
    intro d start
    rw [assemble, assemble, assembleParts_moved ih]
    exact map_bind_map fun b => congrArg Except.ok joinBundle_moved
  | layered t layers size ih =>
    intro d start
    rw [assemble, assemble, canvasFragment_moved]
    refine map_bind_map fun canvas => ?_
    rw [Fragment.after_moved, Fragment.picture_moved, assembleLayers_moved ih]
    refine map_bind_map fun stack => congrArg Except.ok ?_
    rw [← mixSounds_moved, ← Fragment.append_moved]
    rfl
  | scored t picture sound ihp ihs =>
    intro d start
    rw [assemble_scored, assemble_scored, assembleIf_moved ihp]
    refine map_bind_map fun p => ?_
    rw [Fragment.after_moved, assembleIf_moved ihs]
    refine map_bind_map fun s => congrArg Except.ok ?_
    rw [limitSound_moved]
    exact Fragment.append_moved _ _ _ _
  | trimmed t input begins stop ih =>
    intro d start
    rw [assemble, assemble, ih]
    refine map_bind_map fun f => congrArg Except.ok ?_
    rw [Fragment.viaPicture_moved, Fragment.viaSound_moved]

end

/-! ### Drawing -/

/-- The streams with their labels moved. -/
def Streams.moved (base : Cursor) (x : Streams) : Streams :=
  ⟨x.picture.map (Label.moved base), x.sound.map (Label.moved base)⟩

/-- What a clip adds does not depend on where it is added.  The walk from a cursor gives what the
walk from the beginning gives, with its labels moved past the cursor, or fails as that one does.
Drawing a clip in a draft puts behind the inputs and chains of the draft those that it puts into an
empty one, with their labels moved, gives out as many labels as there, and fails as there. -/
theorem draw_eq_moved (c : Clip) (d : Demand) :
    (∀ start, assemble c d start = (assemble c d ⟨0, 0⟩).map (Fragment.moved start)) ∧
    ∀ s : Draft, draw c d s = (draw c d .empty).map fun (x, added) =>
      (x.moved s.cursor,
        ⟨s.inputs ++ added.inputs, s.chains ++ added.chains.map (Chain.moved s.cursor),
          s.labels + added.labels⟩) := by
  have hwalk (start : Cursor) :
      assemble c d start = (assemble c d ⟨0, 0⟩).map (Fragment.moved start) := by
    have hstart : Cursor.moved ⟨0, 0⟩ start = start := by
      simp only [Cursor.moved, Nat.zero_add]
    have hmoved := assemble_moved start c d ⟨0, 0⟩
    rw [hstart] at hmoved
    exact hmoved
  refine ⟨hwalk, fun s => ?_⟩
  rw [draw_eq c d s, draw_eq c d .empty, hwalk s.cursor]
  have hempty : Draft.empty.cursor = ⟨0, 0⟩ := rfl
  rw [hempty]
  cases assemble c d ⟨0, 0⟩ with
  | error e => rfl
  | ok f =>
    simp only [Except.map, Fragment.drawn, Fragment.streams, Fragment.moved, Streams.moved,
      Draft.add, Draft.empty, List.nil_append, Nat.zero_add]

end Montage.Filtergraph
