import Montage.Proofs.Filtergraph.Walk

/-!
# Drawing a growing graph

The walk `assemble` reads a cursor and gives only what it adds.  `draw` is the same walk on a graph
that grows: each step reads the inputs, chains and labels that there are so far, and puts its own
behind them.

The two agree: drawing a clip adds to the graph what the walk from the cursor of the graph gives,
and it fails where the walk does (`draw_eq`).  The steps are compared one by one, each on a graph to
which a fragment was added; `Drawing.bind_eq` and `Drawing.bind_eq_of_ok` chain them.
-/

namespace Montage.Filtergraph

/-! ### Drafts -/

/-- The labels of the streams of a clip. -/
structure Streams where
  picture : Option Label
  sound : Option Label
  deriving DecidableEq, Repr

/-- A graph that grows. -/
structure Draft where
  inputs : List Input
  chains : List Chain
  /-- The number of labels that were given out. -/
  labels : Nat
  deriving DecidableEq, Repr

/-- A computation that draws in a graph and may fail. -/
abbrev Drawing := StateT Draft (Except Fault)

namespace Drawing

/-- Adds an input, and gives its number. -/
def input (i : Input) : Drawing Nat := fun s =>
  .ok (s.inputs.length, { s with inputs := s.inputs ++ [i] })

/-- Gives out the next label. -/
def label (stream : Stream) : Drawing Label := fun s =>
  .ok (.link stream s.labels, { s with labels := s.labels + 1 })

/-- Adds a chain, and gives the label of the stream that it makes. -/
def chain (stream : Stream) (inputs : List Label) (filter : Filter) : Drawing Label := do
  let output ← label stream
  modify fun s => { s with chains := s.chains ++ [⟨inputs, filter, output⟩] }
  return output

/-- Makes a picture stream out of other streams. -/
def withPicture (inputs : List Label) (filter : Filter) (x : Streams) : Drawing Streams := do
  return { x with picture := some (← chain .picture inputs filter) }

/-- Makes a sound stream out of other streams. -/
def withSound (inputs : List Label) (filter : Filter) (x : Streams) : Drawing Streams := do
  return { x with sound := some (← chain .sound inputs filter) }

/-- Passes the picture stream, if there is one, through a filter. -/
def viaPicture (filter : Filter) (x : Streams) : Drawing Streams :=
  match x.picture with
  | none => return x
  | some label => withPicture [label] filter x

/-- Passes the sound stream, if there is one, through a filter. -/
def viaSound (filter : Filter) (x : Streams) : Drawing Streams :=
  match x.sound with
  | none => return x
  | some label => withSound [label] filter x

/-- Draws only on demand; without it the streams stay as they are. -/
def onDemand (demanded : Bool) (m : Drawing Streams) (x : Streams) : Drawing Streams :=
  if demanded then m else return x

/-- Gives a part of a sequence silence where sound is demanded and the part has none. -/
def silence (d : Demand) (duration : Option Seconds) (x : Streams) : Drawing Streams :=
  if d.sound && x.sound.isNone then
    match duration with
    | none => throw .unknownSilenceLength
    | some duration => withSound [] (.silence duration) x
  else return x

/-- Joins the streams of a sequence. -/
def join (d : Demand) (pictures sounds : List Label) : Drawing Streams := do
  let x ← onDemand d.picture
    (withPicture pictures (.concat pictures.length .picture) ⟨none, none⟩) ⟨none, none⟩
  onDemand d.sound (withSound sounds (.concat sounds.length .sound) x) x

/-- The black picture at the bottom of a composition. -/
def canvas (d : Demand) (size : Canvas) (duration : Option Seconds) : Drawing Streams :=
  if d.picture then
    match duration with
    | none => throw .unknownCompositionLength
    | some duration => withPicture [] (.black size duration) ⟨none, none⟩
  else return ⟨none, none⟩

/-- Puts a layer on top of the picture below it. -/
def overlay (below : Option Label) (offset : Placement) (x : Streams) : Drawing Streams :=
  match below, x.picture with
  | some below, some picture => withPicture [below, picture] (.overlay offset) x
  | below, _ => return { x with picture := below }

/-- Plays the sounds of the layers together.  A single sound stays as it is. -/
def mix (d : Demand) (sounds : List Label) (x : Streams) : Drawing Streams :=
  onDemand d.sound
    (match sounds with
    | [sound] => return { x with sound := some sound }
    | sounds => withSound sounds (.mix sounds.length) x) x

/-- Ends a sound where the picture that it goes with ends, when that is known. -/
def limit (duration : Option Seconds) (x : Streams) : Drawing Streams :=
  match duration with
  | none => return x
  | some duration => viaSound (.limit duration) x

end Drawing

open Drawing

mutual

/-- Draws the demanded streams of a clip. -/
def draw : Clip → Demand → Drawing Streams
  | .source t medium path limit, d => do
    let number ← input ⟨path, medium == .image, limit⟩
    return ⟨if (d.within t).picture then some (.pad number .picture) else none,
      if (d.within t).sound then some (.pad number .sound) else none⟩
  | .resized t input width height, d => do
    let x ← draw input (d.within t)
    if width.isNone && height.isNone then return x else viaPicture (.scale width height) x
  | .framed t input margin color opacity, d => do
    viaPicture (.pad margin color opacity) (← draw input (d.within t))
  | .placed t input, d => draw input (d.within t)
  | .joined t parts, d => do
    let (pictures, sounds) ← drawParts parts (d.within t)
    join (d.within t) pictures sounds
  | .layered t layers size, d => do
    let below ← canvas (d.within t) size t.duration
    let (picture, sounds) ← drawLayers layers (d.within t) below.picture
    mix (d.within t) sounds ⟨picture, none⟩
  | .scored t picture sound, d => do
    let p ← onDemand (d.within t).picture (draw picture .pictureOnly) ⟨none, none⟩
    let x ← onDemand (d.within t).sound (draw sound .soundOnly) ⟨none, none⟩
    return ⟨p.picture, (← limit picture.duration x).sound⟩
  | .trimmed t input begins stop, d => do
    let x ← viaPicture (.trim .picture begins stop) (← draw input (d.within t))
    viaSound (.trim .sound begins stop) x

/-- Draws the parts of a sequence, one after another, and collects their streams. -/
def drawParts : List Clip → Demand → Drawing (List Label × List Label)
  | [], _ => return ([], [])
  | c :: cs, d => do
    let x ← silence d c.duration (← draw c d)
    let (pictures, sounds) ← drawParts cs d
    return (x.picture.toList ++ pictures, x.sound.toList ++ sounds)

/-- Draws the layers of a composition on top of a picture, from the bottom up, and collects their
sounds. -/
def drawLayers : List Clip → Demand → Option Label → Drawing (Option Label × List Label)
  | [], _, below => return (below, [])
  | c :: cs, d, below => do
    let x ← overlay below c.offset (← draw c d)
    let (top, sounds) ← drawLayers cs d x.picture
    return (top, x.sound.toList ++ sounds)

end

/-! ### Drafts and fragments -/

namespace Draft

/-- The graph with nothing in it. -/
def empty : Draft := ⟨[], [], 0⟩

/-- How many inputs and labels a draft has. -/
def cursor (s : Draft) : Cursor := ⟨s.inputs.length, s.labels⟩

/-- The draft with what a fragment adds. -/
def add (s : Draft) (f : Fragment) : Draft :=
  ⟨s.inputs ++ f.inputs, s.chains ++ f.chains, s.labels + f.issued⟩

/-- A draft with a fragment has the cursor after the fragment. -/
lemma cursor_add (s : Draft) (f : Fragment) : (s.add f).cursor = f.after s.cursor := by
  simp only [cursor, add, Fragment.after, List.length_append]

/-- The empty fragment adds nothing. -/
lemma add_empty (s : Draft) : s.add .empty = s := by
  simp only [add, Fragment.empty, List.append_nil, Nat.add_zero]

/-- Two fragments together add what they add one after the other, whatever their streams are. -/
lemma add_append (s : Draft) (f g : Fragment) (picture sound : Option Label) :
    s.add (f.append g picture sound) = (s.add f).add g := by
  simp only [add, Fragment.append, List.append_assoc, Nat.add_assoc]

end Draft

namespace Fragment

/-- The labels of the streams of a fragment. -/
def streams (f : Fragment) : Streams := ⟨f.picture, f.sound⟩

/-- The outcome of drawing a fragment. -/
def drawn (s : Draft) (f : Fragment) : Streams × Draft := (f.streams, s.add f)

end Fragment

/-! ### Steps on a draft with a fragment -/

namespace Drawing

/-- Two drawings in a row agree with two computations in a row when the first one does, and the
second one on each of its results. -/
lemma bind_eq {α β γ δ : Type} {m : Drawing α} {k : α → Drawing β} {s : Draft} {x : Except Fault γ}
    {y : γ → Except Fault δ} {f : γ → α × Draft} {g : δ → β × Draft} (hm : m s = x.map f)
    (hk : ∀ c, k (f c).1 (f c).2 = (y c).map g) : (m >>= k) s = (x >>= y).map g := by
  change m s >>= (fun p => k p.1 p.2) = _
  rw [hm]
  exact map_bind_map hk

/-- A drawing after one that succeeds goes on with its result. -/
lemma bind_eq_of_ok {α β : Type} {m : Drawing α} {k : α → Drawing β} {s s' : Draft} {a : α}
    (hm : m s = .ok (a, s')) : (m >>= k) s = k a s' := by
  change m s >>= (fun p => k p.1 p.2) = _
  rw [hm]
  rfl

variable {d : Demand} {labels : List Label} {filter : Filter} (s : Draft) (f : Fragment)

/-- A chain that is drawn after a fragment is emitted by it. -/
lemma chain_add {stream : Stream} :
    chain stream labels filter (s.add f) =
      .ok (f.next s.cursor stream, s.add (f.emit s.cursor stream labels filter)) := by
  change Except.ok (Label.link stream (s.labels + f.issued), _) = _
  simp only [Draft.add, Fragment.emit, List.append_assoc, Nat.add_assoc]
  rfl

/-- A picture is made out of streams as in a fragment. -/
lemma withPicture_add : withPicture labels filter f.streams (s.add f) =
    .ok ((f.withPicture s.cursor labels filter).drawn s) :=
  bind_eq_of_ok (chain_add s f)

/-- A sound is made out of streams as in a fragment. -/
lemma withSound_add : withSound labels filter f.streams (s.add f) =
    .ok ((f.withSound s.cursor labels filter).drawn s) :=
  bind_eq_of_ok (chain_add s f)

/-- A picture is passed through a filter as in a fragment. -/
lemma viaPicture_add : viaPicture filter f.streams (s.add f) =
    .ok ((f.viaPicture s.cursor filter).drawn s) := by
  obtain ⟨inputs, chains, issued, picture, sound⟩ := f
  cases picture with
  | none => rfl
  | some label => exact withPicture_add s _

/-- A sound is passed through a filter as in a fragment. -/
lemma viaSound_add : viaSound filter f.streams (s.add f) =
    .ok ((f.viaSound s.cursor filter).drawn s) := by
  obtain ⟨inputs, chains, issued, picture, sound⟩ := f
  cases sound with
  | none => rfl
  | some label => exact withSound_add s _

/-- What is drawn on demand after a fragment is another fragment or the same one. -/
lemma onDemand_add {demanded : Bool} {m : Drawing Streams} {g : Fragment}
    (h : m (s.add f) = .ok (g.drawn s)) : onDemand demanded m f.streams (s.add f) =
      .ok (Fragment.drawn s (if demanded then g else f)) := by
  cases demanded with
  | false => rfl
  | true => exact h

/-- A part gets silence as in a fragment. -/
lemma silence_add {duration : Option Seconds} : silence d duration f.streams (s.add f) =
    (fillSilence d duration s.cursor f).map (Fragment.drawn s) := by
  have hsound : f.streams.sound = f.sound := rfl
  unfold silence fillSilence
  rw [hsound]
  by_cases hsilent : (d.sound && f.sound.isNone) = true
  · rw [if_pos hsilent, if_pos hsilent]
    cases duration with
    | none => rfl
    | some duration => exact withSound_add s f
  · rw [if_neg hsilent, if_neg hsilent]
    rfl

/-- Streams are joined as in a bundle. -/
lemma join_add {b : Bundle} : join d b.pictures b.sounds (s.add b.toFragment) =
    .ok ((joinBundle d s.cursor b).drawn s) := by
  refine (bind_eq_of_ok (onDemand_add s b.toFragment (withPicture_add s _))).trans ?_
  exact onDemand_add s _ (withSound_add s _)

/-- A canvas is drawn as a fragment of its own. -/
lemma canvas_eq {size : Canvas} {duration : Option Seconds} : canvas d size duration s =
    (canvasFragment d size duration s.cursor).map (Fragment.drawn s) := by
  have hempty : s.add .empty = s := s.add_empty
  unfold canvas canvasFragment
  by_cases hdemanded : d.picture = true
  · rw [if_pos hdemanded, if_pos hdemanded]
    cases duration with
    | none => rfl
    | some duration =>
      conv_lhs => rw [← hempty]
      exact withPicture_add s .empty
  · rw [if_neg hdemanded, if_neg hdemanded]
    exact congrArg (fun s' => Except.ok (Fragment.empty.streams, s')) hempty.symm

/-- A layer is put on a picture as in a fragment. -/
lemma overlay_add {below : Option Label} {offset : Placement} :
    overlay below offset f.streams (s.add f) =
      .ok ((overlayFragment below offset s.cursor f).drawn s) := by
  obtain ⟨inputs, chains, issued, picture, sound⟩ := f
  cases below with
  | none => cases picture <;> rfl
  | some below =>
    cases picture with
    | none => rfl
    | some picture => exact withPicture_add s _

/-- Sounds are mixed as in a fragment. -/
lemma mix_add {sounds : List Label} : mix d sounds f.streams (s.add f) =
    .ok ((mixSounds d s.cursor sounds f).drawn s) := by
  unfold mix mixSounds
  refine onDemand_add s f ?_
  rcases sounds with _ | ⟨sound, _ | ⟨second, sounds⟩⟩
  · exact withSound_add s f
  · rfl
  · exact withSound_add s f

/-- A sound ends as in a fragment. -/
lemma limit_add {duration : Option Seconds} : limit duration f.streams (s.add f) =
    .ok ((limitSound duration s.cursor f).drawn s) := by
  cases duration with
  | none => rfl
  | some duration => exact viaSound_add s f

end Drawing

/-! ### The walk -/

/-- Drawing a clip agrees with the walk over it, whatever is drawn already. -/
def Drawn (c : Clip) : Prop :=
  ∀ d s, draw c d s = (assemble c d s.cursor).map (Fragment.drawn s)

/-- Parts are drawn as in a bundle. -/
lemma drawParts_eq {cs : List Clip} (h : ∀ c ∈ cs, Drawn c) (d : Demand) (s : Draft) :
    drawParts cs d s =
      (assembleParts cs d s.cursor).map fun b => ((b.pictures, b.sounds), s.add b.toFragment) := by
  induction cs generalizing s with
  | nil =>
    rw [drawParts, assembleParts]
    exact congrArg (fun s' => Except.ok (([], []), s')) s.add_empty.symm
  | cons c cs ih =>
    obtain ⟨hc, hcs⟩ := List.forall_mem_cons.1 h
    rw [drawParts, assembleParts]
    refine bind_eq (hc d s) fun g => bind_eq (silence_add s g) fun f => ?_
    have hrest := ih hcs (s.add f)
    rw [Draft.cursor_add] at hrest
    refine bind_eq hrest fun b => congrArg (fun s' => Except.ok (_, s')) ?_
    exact (s.add_append f b.toFragment none none).symm

/-- Layers are drawn as in a fragment. -/
lemma drawLayers_eq {cs : List Clip} (h : ∀ c ∈ cs, Drawn c) (d : Demand) (below : Option Label)
    (s : Draft) : drawLayers cs d below s =
      (assembleLayers cs d below s.cursor).map fun stack =>
        ((stack.1.picture, stack.2), s.add stack.1) := by
  induction cs generalizing s below with
  | nil =>
    rw [drawLayers, assembleLayers]
    exact congrArg (fun s' => Except.ok ((below, []), s')) s.add_empty.symm
  | cons c cs ih =>
    obtain ⟨hc, hcs⟩ := List.forall_mem_cons.1 h
    rw [drawLayers, assembleLayers]
    refine bind_eq (hc d s) fun g => ?_
    refine (bind_eq_of_ok (overlay_add s g)).trans ?_
    dsimp only
    generalize overlayFragment below c.offset s.cursor g = f
    have hrest := ih hcs f.picture (s.add f)
    rw [Draft.cursor_add] at hrest
    refine bind_eq hrest fun stack => congrArg (fun s' => Except.ok (_, s')) ?_
    exact (s.add_append f stack.1 stack.1.picture none).symm

/-- A clip that is drawn on demand agrees with the walk on demand. -/
lemma onDemand_eq {c : Clip} (h : Drawn c) (demanded : Bool) (d : Demand) (s : Draft) :
    onDemand demanded (draw c d) ⟨none, none⟩ s =
      (assembleIf demanded c d s.cursor).map (Fragment.drawn s) := by
  cases demanded with
  | false => exact congrArg (fun s' => Except.ok (Fragment.empty.streams, s')) s.add_empty.symm
  | true => exact h d s

/-- Drawing a clip adds to the draft what the walk from its cursor gives, and it fails exactly where
the walk fails. -/
theorem draw_eq (c : Clip) : Drawn c := by
  induction c with
  | source t medium path limit =>
    intro d s
    rw [draw, assemble]
    simp only [Fragment.drawn, Draft.add, sourceFragment, Except.map, List.append_nil]
    rfl
  | resized t input width height ih =>
    intro d s
    rw [draw, assemble]
    refine bind_eq (ih _ s) fun f => ?_
    unfold scaleFragment
    cases width.isNone && height.isNone with
    | false => exact viaPicture_add s f
    | true => rfl
  | framed t input margin color opacity ih =>
    intro d s
    rw [draw, assemble]
    exact bind_eq (ih _ s) fun f => viaPicture_add s f
  | placed t input ih =>
    intro d s
    rw [draw, assemble]
    exact ih _ s
  | joined t parts ih =>
    intro d s
    rw [draw, assemble]
    exact bind_eq (drawParts_eq ih _ s) fun b => join_add s
  | layered t layers size ih =>
    intro d s
    rw [draw, assemble]
    refine bind_eq (canvas_eq s) fun canvas => ?_
    have hlayers := drawLayers_eq ih (d.within t) canvas.picture (s.add canvas)
    rw [Draft.cursor_add] at hlayers
    refine bind_eq hlayers fun stack => ?_
    dsimp only
    rw [← s.add_append canvas stack.1 stack.1.picture none]
    exact mix_add s (canvas.append stack.1 stack.1.picture none)
  | scored t picture sound ihp ihs =>
    intro d s
    rw [draw, assemble_scored]
    refine bind_eq (onDemand_eq ihp _ _ s) fun p => ?_
    have hsound := onDemand_eq ihs (d.within t).sound .soundOnly (s.add p)
    rw [Draft.cursor_add] at hsound
    refine bind_eq hsound fun x => ?_
    refine (bind_eq_of_ok (limit_add (s.add p) x)).trans ?_
    rw [Draft.cursor_add]
    exact congrArg (fun s' => Except.ok (_, s')) (s.add_append p _ _ _).symm
  | trimmed t input begins stop ih =>
    intro d s
    rw [draw, assemble]
    refine bind_eq (ih _ s) fun f => ?_
    exact (bind_eq_of_ok (viaPicture_add s f)).trans (viaSound_add s _)

end Montage.Filtergraph
