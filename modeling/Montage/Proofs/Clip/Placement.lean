import Montage.Proofs.Clip.Plan

/-!
# Placing clips

To place a clip on a canvas only records where it lands.  No other change of a picture looks at this
place, and the walk over a placed clip is the walk over the clip itself (`walk_shown`).  So a clip
may be placed before or after it is resized, framed, cut or given another sound, and of two places
the last one counts, side by side.

`Interchangeable` says what this is good for: in whatever larger clip the one result stands, the
other one can stand in its place, and nothing changes but the tree.
-/

namespace Montage

open Filtergraph

namespace Clip

variable {c : Clip} {offset : Placement}

/-- The clip with another place on a canvas. -/
def shown (offset : Placement) (c : Clip) : Clip := .placed { c.traits with offset } c

/-- A clip with a picture can be placed. -/
lemma place_of_hasPicture (hc : c.hasPicture = true) (x y : Option UInt32) :
    c.place x y = .ok (c.shown ⟨x.getD c.offset.x, y.getD c.offset.y⟩) :=
  place_eq_ok.2 ⟨hc, rfl⟩

/-- A walk over a clip only looks for streams that the clip has. -/
lemma walk_within (c : Clip) (d : Demand) (start : Cursor) :
    assemble c (d.within c.traits) start = assemble c d start := by
  have hwithin : (d.within c.traits).within c.traits = d.within c.traits :=
    Demand.within_within rfl rfl
  cases c <;> simp only [traits] at hwithin ⊢ <;> simp only [assemble, hwithin]

/-- The walk over a placed clip is the walk over the clip. -/
lemma walk_shown (d : Demand) (start : Cursor) :
    assemble (c.shown offset) d start = assemble c d start := by
  have hwithin : (d.within { c.traits with offset }).within c.traits = d.within c.traits :=
    Demand.within_within rfl rfl
  rw [shown, assemble_placed, ← walk_within c, hwithin, walk_within]

/-! ### Placing before and after -/

/-- A clip may be placed before or after it is resized. -/
lemma place_resize (hc : c.hasPicture = true) (x y width height : Option UInt32) :
    SameOutcome Alike (c.place x y >>= fun d => d.resize width height)
      (c.resize width height >>= fun d => d.place x y) := by
  have hresize : c.resize width height = .ok _ := resize_eq_ok.2 ⟨hc, rfl⟩
  have hbefore : (c.shown ⟨x.getD c.offset.x, y.getD c.offset.y⟩).resize width height = .ok _ :=
    resize_eq_ok.2 ⟨hc, rfl⟩
  rw [place_of_hasPicture hc, hresize]
  change SameOutcome Alike (Clip.resize _ width height) (Clip.place _ x y)
  rw [hbefore, place_of_hasPicture]
  · refine .ok ⟨rfl, fun d start => ?_⟩
    simp only [walk_shown, assemble]
    rfl
  · exact hc

/-- A clip may be placed before or after it is framed. -/
lemma place_frame (hc : c.hasPicture = true) (x y : Option UInt32) (margin : UInt32) (color : Color)
    (opacity : UInt32) :
    SameOutcome Alike (c.place x y >>= fun d => d.frame margin color opacity)
      (c.frame margin color opacity >>= fun d => d.place x y) := by
  have hframe : c.frame margin color opacity = .ok _ := frame_eq_ok.2 ⟨hc, rfl⟩
  have hbefore : (c.shown ⟨x.getD c.offset.x, y.getD c.offset.y⟩).frame margin color opacity =
      .ok _ := frame_eq_ok.2 ⟨hc, rfl⟩
  rw [place_of_hasPicture hc, hframe]
  change SameOutcome Alike (Clip.frame _ margin color opacity) (Clip.place _ x y)
  rw [hbefore, place_of_hasPicture]
  · refine .ok ⟨rfl, fun d start => ?_⟩
    simp only [walk_shown, assemble]
    rfl
  · exact hc

/-- A clip may be placed before or after it is cut. -/
lemma place_cut (hc : c.hasPicture = true) (x y : Option UInt32) (start : Seconds)
    (stop : Option Seconds) :
    SameOutcome Alike (c.place x y >>= fun d => d.cut start stop)
      (c.cut start stop >>= fun d => d.place x y) := by
  have hlength : (c.shown ⟨x.getD c.offset.x, y.getD c.offset.y⟩).duration = c.duration := rfl
  rw [place_of_hasPicture hc]
  change SameOutcome Alike (Clip.cut _ start stop) _
  rw [cut_eq, cut_eq, hlength, bind_assoc]
  -- whether the range makes sense is decided by the length, which a place does not change
  refine (SameOutcome.refl (fun _ => rfl) _).bind (R := Eq) fun _ _ _ => ?_
  change SameOutcome Alike _ (Clip.place _ x y)
  rw [place_of_hasPicture]
  · refine .ok ⟨rfl, fun d begins => ?_⟩
    simp only [walk_shown, assemble]
    rfl
  · exact hc

/-- A clip may be placed before or after it is given another sound. -/
lemma place_setAudio (hc : c.hasPicture = true) (x y : Option UInt32) (sound : Clip) :
    SameOutcome Alike (c.place x y >>= fun d => d.setAudio sound)
      (c.setAudio sound >>= fun d => d.place x y) := by
  rw [place_of_hasPicture hc]
  change SameOutcome Alike (Clip.setAudio _ sound) _
  cases hsound : sound.hasSound with
  | true =>
    have hafter : c.setAudio sound = .ok _ := setAudio_eq_ok.2 ⟨hc, hsound, rfl⟩
    have hbefore : (c.shown ⟨x.getD c.offset.x, y.getD c.offset.y⟩).setAudio sound = .ok _ :=
      setAudio_eq_ok.2 ⟨hc, hsound, rfl⟩
    rw [hafter, hbefore]
    change SameOutcome Alike _ (Clip.place _ x y)
    rw [place_of_hasPicture]
    · refine .ok ⟨rfl, fun d start => ?_⟩
      simp only [walk_shown, assemble]
      rfl
    · exact hc
  | false =>
    have hsilent {d : Clip} (hd : d.hasPicture = true) :
        d.setAudio sound = .error .noSoundToAttach := by
      simp [setAudio, requirePicture, hd, hsound, bind, Except.bind, throw, throwThe,
        MonadExceptOf.throw]
    rw [hsilent hc, hsilent]
    · exact .error _
    · exact hc

/-- Of two places the last one counts, and where it says nothing the first one. -/
lemma place_place (hc : c.hasPicture = true) (x y x' y' : Option UInt32) :
    SameOutcome Alike (c.place x y >>= fun d => d.place x' y')
      (c.place (x' <|> x) (y' <|> y)) := by
  have hside (side side' : Option UInt32) (current : UInt32) :
      side'.getD (side.getD current) = (side' <|> side).getD current := by
    cases side' <;> rfl
  rw [place_of_hasPicture hc, place_of_hasPicture hc]
  change SameOutcome Alike (Clip.place _ x' y') _
  rw [place_of_hasPicture]
  · refine .ok ⟨?_, fun d start => ?_⟩
    · rw [← hside, ← hside]
      rfl
    · rw [walk_shown, walk_shown, walk_shown]
  · exact hc

end Clip

/-! ### Calls -/

/-- A change of a clip that does not place it. -/
inductive Treatment where
  | resize (height width : Option UInt32)
  | margin (m : Margin)
  | subclip (start : Timestamp) (stop : Option Timestamp)
  | setAudio (sound : Clip)

/-- How a clip is made with a change. -/
def Treatment.recipe : Treatment → Clip → Recipe Clip
  | .resize height width, c => .effect c (.resize height width)
  | .margin m, c => .effect c (.margin m)
  | .subclip start stop, c => .extractRange c start stop
  | .setAudio sound, c => .attachAudio c sound

/-- Two outcomes can stand for each other: they are the same error, or clips with the same traits
and the same graph, and so is what any plan makes of them. -/
structure Interchangeable (h : Host) (o : RenderOptions) (r : Renderer) (a b : Except Error Clip) :
    Prop where
  outcome : a.map Clip.view = b.map Clip.view
  context : ∀ plan : Plan,
    (a >>= plan.build h o r).map Clip.view = (b >>= plan.build h o r).map Clip.view

section Calls

variable {h : Host} {o : RenderOptions} {r : Renderer} {c : Clip}

/-- Outcomes that are alike can stand for each other. -/
lemma interchangeable_of_alike {a b : Except Error Clip} (hab : SameOutcome Clip.Alike a b) :
    Interchangeable h o r a b where
  outcome := hab.map_eq fun _ _ hc => hc.view_eq
  context plan :=
    (hab.bind fun _ _ hc => plan.build_alike hc).map_eq fun _ _ hd => hd.view_eq

/-- What is the same of the faults of two calls is the same of their errors. -/
lemma sameOutcome_calls {x y : Except Fault Clip} {f g : Clip → Except Fault Clip}
    (hxy : SameOutcome Clip.Alike (x >>= f) (y >>= g)) :
    SameOutcome Clip.Alike (x.mapError Error.backend >>= fun d => (f d).mapError Error.backend)
      (y.mapError Error.backend >>= fun d => (g d).mapError Error.backend) := by
  rw [← mapError_bind, ← mapError_bind]
  exact hxy.mapError _

/-- For a clip with a picture, placing it and another change can be done in either order, and
placing it twice can be done at once.  In every larger clip the results can stand for each other. -/
theorem interchangeable_place (hc : c.hasPicture = true) (x y : Option UInt32) :
    (∀ F : Treatment, Interchangeable h o r
      ((Renderer.make h o (.effect c (.position x y)) r).outcome >>= fun d =>
        (Renderer.make h o (F.recipe d) r).outcome)
      ((Renderer.make h o (F.recipe c) r).outcome >>= fun d =>
        (Renderer.make h o (.effect d (.position x y)) r).outcome)) ∧
    ∀ x' y' : Option UInt32, Interchangeable h o r
      ((Renderer.make h o (.effect c (.position x y)) r).outcome >>= fun d =>
        (Renderer.make h o (.effect d (.position x' y')) r).outcome)
      (Renderer.make h o (.effect c (.position (x' <|> x) (y' <|> y))) r).outcome := by
  refine ⟨fun F => interchangeable_of_alike ?_, fun x' y' => interchangeable_of_alike ?_⟩
  · cases F with
    | resize height width => exact sameOutcome_calls (Clip.place_resize hc x y width height)
    | margin m => exact sameOutcome_calls (Clip.place_frame hc x y _ _ _)
    | subclip start stop => exact sameOutcome_calls (Clip.place_cut hc x y _ _)
    | setAudio sound => exact sameOutcome_calls (Clip.place_setAudio hc x y sound)
  · have htwice := (Clip.place_place hc x y x' y').mapError Error.backend
    rw [mapError_bind] at htwice
    exact htwice

end Calls

/-- A thin border. -/
def thinBorder : Treatment := .margin ⟨some 2, none, none, none, none⟩

/-- A clip laid over the video file. -/
def overTalk : Plan := .composite [.clip talk, .gap] none

/-- What a call makes in the studio. -/
def inStudio (recipe : Recipe Clip) : Except Error Clip :=
  (Renderer.make .standard Filtergraph.rehearsal recipe studio).outcome

/-- The title card can be framed before or after it is placed: laid over the video file it is the
same picture, with the same graph. -/
theorem interchangeable_place_card : ∃ t g,
    ((inStudio (.effect card (.position (some 8) none)) >>= fun d =>
        inStudio (thinBorder.recipe d)) >>=
      overTalk.build .standard Filtergraph.rehearsal studio).map Clip.view = .ok (t, .ok g) ∧
    ((inStudio (thinBorder.recipe card) >>= fun d =>
        inStudio (.effect d (.position (some 8) none))) >>=
      overTalk.build .standard Filtergraph.rehearsal studio).map Clip.view = .ok (t, .ok g) := by
  have hcard : card.hasPicture = true := rfl
  obtain ⟨horder, -⟩ := interchangeable_place (h := .standard) (o := Filtergraph.rehearsal)
    (r := studio) hcard (some 8) none
  have hsame := (horder thinBorder).context overTalk
  exact ⟨_, _, rfl, hsame.symm.trans rfl⟩

end Montage
