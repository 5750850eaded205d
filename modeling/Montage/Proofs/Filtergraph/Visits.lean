import Montage.Proofs.Clip.Leaves
import Montage.Proofs.Filtergraph.Walk

/-!
# Visits

A walk over a clip visits some of the nodes of its tree: a stream that is not demanded, or that the
clip does not have, is not looked for.  `visits` lists the nodes, each after those below it, with
the streams that are computed there.  It is a recursion of its own, without labels and cursors, so
that what a graph is made of can be said in terms of the clip.

The inputs of a graph are the leaves that are visited, in this order (`inputs_assemble`).
-/

namespace Montage

/-- The input that a leaf is read through. -/
def Leaf.input (l : Leaf) : Filtergraph.Input := ⟨l.path, l.medium == .image, l.limit⟩

namespace Filtergraph

/-- A node of the tree of a clip, with the streams that a walk computes there. -/
structure Visit where
  node : Clip
  demand : Demand

mutual

/-- The nodes that a walk over a clip visits, each after those below it. -/
def visits : Clip → Demand → List Visit
  | .source t medium path limit, d => [⟨.source t medium path limit, d.within t⟩]
  | .resized t input width height, d =>
    visits input (d.within t) ++ [⟨.resized t input width height, d.within t⟩]
  | .framed t input margin color opacity, d =>
    visits input (d.within t) ++ [⟨.framed t input margin color opacity, d.within t⟩]
  | .placed t input, d => visits input (d.within t) ++ [⟨.placed t input, d.within t⟩]
  | .joined t parts, d => visitsAll parts (d.within t) ++ [⟨.joined t parts, d.within t⟩]
  | .layered t layers size, d =>
    visitsAll layers (d.within t) ++ [⟨.layered t layers size, d.within t⟩]
  | .scored t picture sound, d =>
    (if (d.within t).picture then visits picture .pictureOnly else []) ++
      (if (d.within t).sound then visits sound .soundOnly else []) ++
      [⟨.scored t picture sound, d.within t⟩]
  | .trimmed t input start stop, d =>
    visits input (d.within t) ++ [⟨.trimmed t input start stop, d.within t⟩]

/-- The nodes that walks over several clips visit, one clip after another. -/
def visitsAll : List Clip → Demand → List Visit
  | [], _ => []
  | c :: cs, d => visits c d ++ visitsAll cs d

end

/-- The leaf that is visited, when the node is a source file. -/
def Visit.leaf? (v : Visit) : Option Leaf :=
  match v.node with
  | .source t medium path limit => some ⟨t, medium, path, limit⟩
  | _ => none

/-- The leaves that are visited, in order. -/
def visitedLeaves (vs : List Visit) : List Leaf := vs.filterMap Visit.leaf?

/-- The leaves of visits after one another. -/
lemma visitedLeaves_append (vs ws : List Visit) :
    visitedLeaves (vs ++ ws) = visitedLeaves vs ++ visitedLeaves ws :=
  List.filterMap_append

/-- A visit of a node that is no source file visits no leaf. -/
lemma visitedLeaves_concat (vs : List Visit) {v : Visit} (hv : v.leaf? = none) :
    visitedLeaves (vs ++ [v]) = visitedLeaves vs := by
  rw [visitedLeaves_append]
  unfold visitedLeaves
  rw [List.filterMap_cons_none hv, List.filterMap_nil, List.append_nil]

/-- The leaves that are visited below several clips are leaves of these clips, in order. -/
lemma visitedLeaves_visitsAll_sublist {cs : List Clip} {d : Demand}
    (hcs : ∀ c ∈ cs, (visitedLeaves (visits c d)).Sublist c.leaves) :
    (visitedLeaves (visitsAll cs d)).Sublist (Clip.leavesOfAll cs) := by
  induction cs with
  | nil => exact List.nil_sublist _
  | cons c cs ih =>
    obtain ⟨hc, hcs⟩ := List.forall_mem_cons.1 hcs
    rw [visitsAll, visitedLeaves_append, Clip.leavesOfAll]
    exact hc.append (ih hcs)

/-- The leaves that are visited are leaves of the clip, in order. -/
lemma visitedLeaves_sublist (c : Clip) (d : Demand) :
    (visitedLeaves (visits c d)).Sublist c.leaves := by
  induction c generalizing d with
  | source t medium path limit => exact List.Sublist.refl _
  | resized t input width height ih =>
    rw [visits, visitedLeaves_concat _ rfl, Clip.leaves]
    exact ih _
  | framed t input margin color opacity ih =>
    rw [visits, visitedLeaves_concat _ rfl, Clip.leaves]
    exact ih _
  | placed t input ih =>
    rw [visits, visitedLeaves_concat _ rfl, Clip.leaves]
    exact ih _
  | joined t parts ih =>
    rw [visits, visitedLeaves_concat _ rfl, Clip.leaves]
    exact visitedLeaves_visitsAll_sublist fun c hc => ih c hc _
  | layered t layers size ih =>
    rw [visits, visitedLeaves_concat _ rfl, Clip.leaves]
    exact visitedLeaves_visitsAll_sublist fun c hc => ih c hc _
  | scored t picture sound ihp ihs =>
    have hif {demanded : Bool} {c : Clip} {d : Demand}
        (hc : (visitedLeaves (visits c d)).Sublist c.leaves) :
        (visitedLeaves (if demanded = true then visits c d else [])).Sublist c.leaves := by
      split
      · exact hc
      · exact List.nil_sublist _
    rw [visits, visitedLeaves_concat _ rfl, visitedLeaves_append, Clip.leaves]
    exact (hif (ihp _)).append (hif (ihs _))
  | trimmed t input start stop ih =>
    rw [visits, visitedLeaves_concat _ rfl, Clip.leaves]
    exact ih _

/-! ### The inputs of a walk -/

section Inputs

variable {d : Demand} {start : Cursor} {f : Fragment}

@[simp] lemma inputs_viaPicture (f : Fragment) (start : Cursor) (filter : Filter) :
    (f.viaPicture start filter).inputs = f.inputs := by
  unfold Fragment.viaPicture
  cases f.picture <;> rfl

@[simp] lemma inputs_viaSound (f : Fragment) (start : Cursor) (filter : Filter) :
    (f.viaSound start filter).inputs = f.inputs := by
  unfold Fragment.viaSound
  cases f.sound <;> rfl

@[simp] lemma inputs_scaleFragment (width height : Option UInt32) (start : Cursor) (f : Fragment) :
    (scaleFragment width height start f).inputs = f.inputs := by
  unfold scaleFragment
  split
  · rfl
  · exact inputs_viaPicture f start _

@[simp] lemma inputs_limitSound (duration : Option Seconds) (start : Cursor) (f : Fragment) :
    (limitSound duration start f).inputs = f.inputs := by
  unfold limitSound
  cases duration with
  | none => rfl
  | some duration => exact inputs_viaSound f start _

@[simp] lemma inputs_overlayFragment (below : Option Label) (offset : Placement) (start : Cursor)
    (f : Fragment) : (overlayFragment below offset start f).inputs = f.inputs := by
  unfold overlayFragment
  split <;> rfl

@[simp] lemma inputs_joinBundle (d : Demand) (start : Cursor) (b : Bundle) :
    (joinBundle d start b).inputs = b.inputs := by
  unfold joinBundle
  cases d.picture <;> cases d.sound <;> rfl

@[simp] lemma inputs_mixSounds (d : Demand) (start : Cursor) (sounds : List Label) (f : Fragment) :
    (mixSounds d start sounds f).inputs = f.inputs := by
  unfold mixSounds
  split
  · split <;> rfl
  · rfl

/-- Silence opens no input. -/
lemma inputs_fillSilence {duration : Option Seconds} {g : Fragment}
    (h : fillSilence d duration start f = .ok g) : g.inputs = f.inputs := by
  rcases fillSilence_eq_ok.1 h with ⟨-, -, s, -, rfl⟩ | ⟨-, rfl⟩
  · rfl
  · rfl

/-- A canvas opens no input. -/
lemma inputs_canvasFragment {size : Canvas} {duration : Option Seconds} {canvas : Fragment}
    (h : canvasFragment d size duration start = .ok canvas) : canvas.inputs = [] := by
  rcases canvasFragment_eq_ok.1 h with ⟨-, s, -, rfl⟩ | ⟨-, rfl⟩
  · rfl
  · rfl

/-- A walk that only takes place for a demand visits nothing without it. -/
lemma inputs_assembleIf {demanded : Bool} {c : Clip}
    (hc : ∀ {start f}, assemble c d start = .ok f →
      f.inputs = (visitedLeaves (visits c d)).map Leaf.input)
    (h : assembleIf demanded c d start = .ok f) :
    f.inputs = (visitedLeaves (if demanded then visits c d else [])).map Leaf.input := by
  rcases assembleIf_eq_ok.1 h with ⟨rfl, h⟩ | ⟨rfl, rfl⟩
  · exact hc h
  · rfl

/-- The inputs of parts are those of the single parts. -/
lemma inputs_assembleParts {cs : List Clip} {b : Bundle}
    (hcs : ∀ c ∈ cs, ∀ {start f}, assemble c d start = .ok f →
      f.inputs = (visitedLeaves (visits c d)).map Leaf.input)
    (h : assembleParts cs d start = .ok b) :
    b.inputs = (visitedLeaves (visitsAll cs d)).map Leaf.input := by
  induction cs generalizing start b with
  | nil =>
    rw [assembleParts_nil_eq_ok.1 h]
    rfl
  | cons c cs ih =>
    obtain ⟨g, f, rest, hg, hf, hrest, rfl⟩ := assembleParts_cons_eq_ok.1 h
    obtain ⟨hc, hcs⟩ := List.forall_mem_cons.1 hcs
    rw [visitsAll, visitedLeaves_append, List.map_append, ← hc hg, ← ih hcs hrest,
      ← inputs_fillSilence hf]
    rfl

/-- The inputs of layers are those of the single layers. -/
lemma inputs_assembleLayers {cs : List Clip} {below : Option Label} {stack : Fragment}
    {sounds : List Label}
    (hcs : ∀ c ∈ cs, ∀ {start f}, assemble c d start = .ok f →
      f.inputs = (visitedLeaves (visits c d)).map Leaf.input)
    (h : assembleLayers cs d below start = .ok (stack, sounds)) :
    stack.inputs = (visitedLeaves (visitsAll cs d)).map Leaf.input := by
  induction cs generalizing start below stack sounds with
  | nil =>
    obtain ⟨rfl, -⟩ := assembleLayers_nil_eq_ok.1 h
    rfl
  | cons c cs ih =>
    obtain ⟨g, f, upper, others, hg, rfl, hupper, rfl, -⟩ := assembleLayers_cons_eq_ok.1 h
    obtain ⟨hc, hcs⟩ := List.forall_mem_cons.1 hcs
    rw [visitsAll, visitedLeaves_append, List.map_append, ← hc hg, ← ih hcs hupper,
      Fragment.append, inputs_overlayFragment]

/-- The inputs of a walk are the leaves that it visits, in order. -/
theorem inputs_assemble {c : Clip} (h : assemble c d start = .ok f) :
    f.inputs = (visitedLeaves (visits c d)).map Leaf.input := by
  induction c generalizing d start f with
  | source t medium path limit =>
    rw [assemble_source_eq_ok.1 h]
    rfl
  | resized t input width height ih =>
    obtain ⟨g, hg, rfl⟩ := assemble_resized_eq_ok.1 h
    rw [visits, visitedLeaves_concat _ rfl, inputs_scaleFragment, ih hg]
  | framed t input margin color opacity ih =>
    obtain ⟨g, hg, rfl⟩ := assemble_framed_eq_ok.1 h
    rw [visits, visitedLeaves_concat _ rfl, inputs_viaPicture, ih hg]
  | placed t input ih =>
    rw [assemble_placed] at h
    rw [visits, visitedLeaves_concat _ rfl, ih h]
  | joined t parts ih =>
    obtain ⟨b, hb, rfl⟩ := assemble_joined_eq_ok.1 h
    rw [visits, visitedLeaves_concat _ rfl, inputs_joinBundle,
      inputs_assembleParts (fun c hc => ih c hc) hb]
  | layered t layers size ih =>
    obtain ⟨canvas, stack, sounds, hcanvas, hlayers, rfl⟩ := assemble_layered_eq_ok.1 h
    rw [visits, visitedLeaves_concat _ rfl, inputs_mixSounds, Fragment.append,
      inputs_canvasFragment hcanvas, List.nil_append,
      inputs_assembleLayers (fun c hc => ih c hc) hlayers]
  | scored t picture sound ihp ihs =>
    obtain ⟨p, s, hp, hs, rfl⟩ := assemble_scored_eq_ok.1 h
    rw [visits, visitedLeaves_concat _ rfl, visitedLeaves_append, List.map_append, Fragment.append,
      inputs_limitSound, inputs_assembleIf (fun hc => ihp hc) hp,
      inputs_assembleIf (fun hc => ihs hc) hs]
  | trimmed t input begins stop ih =>
    obtain ⟨g, hg, rfl⟩ := assemble_trimmed_eq_ok.1 h
    rw [visits, visitedLeaves_concat _ rfl, inputs_viaSound, inputs_viaPicture, ih hg]

end Inputs

end Filtergraph

end Montage
