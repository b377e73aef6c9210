import AccessTransformer.Json.Tree

/-!
# How deep trees are

A container is entered only if fewer than 127 lie around it.  So in the tree of any text the
containers that were closed are nested at most this deep.  A container that was not closed is left
out of the count, as it may lie deeper and no reader gives anything for it.

A place stands inside as many containers as there are frames, and what was read in each of them has
to fit in the room that is left there.  One token preserves this (`Place.step_fits`), so it holds
all along the way (`run_fits`).

* `Tree.ofTokens_fits`: the tree of any text fits.
-/

namespace AccessTransformer.Json.Tree

/-- The trees with at most so many closed containers around each other. -/
inductive Fits : Nat → Tree → Prop
  | scalar {room : Nat} (s : Scalar) : Fits room (.scalar s)
  | gap {room : Nat} (g : Gap) : Fits room (.gap g)
  | array {room : Nat} {items : List Tree} (h : ∀ item ∈ items, Fits room item) :
    Fits (room + 1) (.array items .closed)
  | object {room : Nat} {members : List (String × Tree)}
    (h : ∀ member ∈ members, Fits room member.2) : Fits (room + 1) (.object members .closed)
  | unclosedArray {room : Nat} {items : List Tree} {tail : Tail} (h : tail ≠ .closed) :
    Fits room (.array items tail)
  | unclosedObject {room : Nat} {members : List (String × Tree)} {tail : Tail}
    (h : tail ≠ .closed) : Fits room (.object members tail)

/-- Whether a value in a place with so many containers around it fits in the room that is left. -/
def FitsAt (depth : Nat) (tree : Tree) : Prop :=
  ∀ room, depth + room = maxDepth → tree.Fits room

/-- Whether the items of a container with so many others around it fit. -/
def ItemsFitAt (depth : Nat) (items : List Tree) : Prop :=
  ∃ room, depth + 1 + room = maxDepth ∧ ∀ item ∈ items, item.Fits room

/-- Whether what was read in a frame with so many containers around it fits. -/
def Frame.FitsAt (depth : Nat) : Frame → Prop
  | .array items => ItemsFitAt depth items
  | .object members _ => ItemsFitAt depth (members.map (·.2))

/-- Whether what was read in a place with so many containers around it fits. -/
def Place.FitsAt (depth : Nat) : Place → Prop
  | .value => True
  | .firstItem => ItemsFitAt depth []
  | .key members => ItemsFitAt depth (members.map (·.2))
  | .colon members _ => ItemsFitAt depth (members.map (·.2))
  | .behindItem items => ItemsFitAt depth items
  | .behindMember members => ItemsFitAt depth (members.map (·.2))

/-- Whether what was read in each of the frames fits. -/
def FramesFit : List Frame → Prop
  | [] => True
  | frame :: frames => frame.FitsAt frames.length ∧ FramesFit frames

/-- Whether a move leads to what fits. -/
def Move.FitsAt (depth : Nat) : Move → Prop
  | .complete tree => tree.FitsAt depth
  | .advance none place => place.FitsAt depth
  | .advance (some frame) place => frame.FitsAt depth ∧ place.FitsAt (depth + 1)
  | .stop tree => tree.FitsAt depth

variable {depth : Nat} {frame : Frame} {frames : List Frame} {tree : Tree}

/-! ## Containers -/

theorem itemsFitAt_nil (h : depth < maxDepth) : ItemsFitAt depth [] :=
  ⟨maxDepth - (depth + 1), by omega, nofun⟩

theorem ItemsFitAt.lt {items : List Tree} (h : ItemsFitAt depth items) : depth < maxDepth := by
  obtain ⟨room, hroom, -⟩ := h
  omega

theorem ItemsFitAt.cons {items : List Tree} (h : ItemsFitAt depth items)
    (htree : tree.FitsAt (depth + 1)) : ItemsFitAt depth (tree :: items) := by
  obtain ⟨room, hroom, hitems⟩ := h
  exact ⟨room, hroom, List.forall_mem_cons.mpr ⟨htree room hroom, hitems⟩⟩

theorem ItemsFitAt.array {items : List Tree} (h : ItemsFitAt depth items) :
    (Tree.array items.reverse .closed).FitsAt depth := by
  obtain ⟨inner, hinner, hitems⟩ := h
  rintro room hroom
  obtain rfl : room = inner + 1 := by omega
  exact .array fun item hitem => hitems item (List.mem_reverse.mp hitem)

theorem ItemsFitAt.object {members : List (String × Tree)}
    (h : ItemsFitAt depth (members.map (·.2))) :
    (Tree.object members.reverse .closed).FitsAt depth := by
  obtain ⟨inner, hinner, hitems⟩ := h
  rintro room hroom
  obtain rfl : room = inner + 1 := by omega
  exact .object fun member hmember =>
    hitems member.2 (List.mem_map_of_mem (List.mem_reverse.mp hmember))

/-- What is cut off in a frame is not closed. -/
theorem Frame.cut_fitsAt (frame : Frame) : (frame.cut tree).FitsAt depth := by
  cases frame with
  | array items => exact fun room _ => .unclosedArray nofun
  | object members key => exact fun room _ => .unclosedObject nofun

/-- The place behind what fits in a frame. -/
theorem Frame.resume_fitsAt (h : frame.FitsAt depth) (htree : tree.FitsAt (depth + 1)) :
    (frame.resume tree).FitsAt depth := by
  cases frame with
  | array items => exact ItemsFitAt.cons h htree
  | object members key => exact ItemsFitAt.cons h htree

/-! ## Steps -/

/-- The start of a container is not yet inside another one. -/
theorem eq_none_of_start_eq_advance {token : Token} {frame : Option Frame} {place : Place}
    (h : start depth token = .advance frame place) : frame = none := by
  unfold start at h
  grind

theorem start_fitsAt (token : Token) : (start depth token).FitsAt depth := by
  fun_cases start depth token with
  | case1 s => exact fun room _ => .scalar s
  | case2 h => exact itemsFitAt_nil h
  | case3 => exact fun room _ => .unclosedArray nofun
  | case4 h => exact itemsFitAt_nil h
  | case5 => exact fun room _ => .unclosedObject nofun
  | case6 => exact fun room _ => .gap _

theorem start_inside_fitsAt (h : depth < maxDepth) (token : Token) :
    ((start (depth + 1) token).inside (.array [])).FitsAt depth := by
  have hframe : (Frame.array []).FitsAt depth := itemsFitAt_nil h
  fun_cases start (depth + 1) token with
  | case1 s => exact Frame.resume_fitsAt hframe fun room _ => .scalar s
  | case2 hdepth => exact ⟨hframe, itemsFitAt_nil hdepth⟩
  | case3 => exact Frame.cut_fitsAt _
  | case4 hdepth => exact ⟨hframe, itemsFitAt_nil hdepth⟩
  | case5 => exact Frame.cut_fitsAt _
  | case6 => exact Frame.cut_fitsAt _

/-- **A token preserves that everything fits.** -/
theorem Place.step_fitsAt {place : Place} {token : Token} {move : Move}
    (hstep : place.step depth token = move) (h : place.FitsAt depth) : move.FitsAt depth := by
  subst hstep
  fun_cases Place.step depth place token with
  | case1 token => exact start_fitsAt token
  | case2 => exact ItemsFitAt.array h
  | case3 token => exact start_inside_fitsAt h.lt token
  | case4 => exact h
  | case5 => exact ItemsFitAt.object (show ItemsFitAt depth ([].map _) from h)
  | case6 => exact fun room _ => .unclosedObject nofun
  | case7 => exact ⟨h, trivial⟩
  | case8 members name => exact (Frame.object members name).cut_fitsAt
  | case9 => exact ⟨h, trivial⟩
  | case10 => exact ItemsFitAt.array h
  | case11 => exact fun room _ => .unclosedArray nofun
  | case12 => exact h
  | case13 => exact ItemsFitAt.object h
  | case14 => exact fun room _ => .unclosedObject nofun

theorem Place.atEnd_fitsAt (place : Place) : place.atEnd.FitsAt depth := by
  cases place with
  | value => exact fun room _ => .gap _
  | firstItem => exact fun room _ => .unclosedArray nofun
  | key members => exact fun room _ => .unclosedObject nofun
  | colon members name => exact (Frame.object members name).cut_fitsAt
  | behindItem items => exact fun room _ => .unclosedArray nofun
  | behindMember members => exact fun room _ => .unclosedObject nofun

/-! ## Runs -/

/-- What is cut off in all frames fits, if it does where it is cut off. -/
theorem cut_fits (h : tree.FitsAt frames.length) : (cut frames tree).Fits maxDepth := by
  induction frames generalizing tree with
  | nil => exact h maxDepth (Nat.zero_add _)
  | cons frame frames ih => exact ih (frame.cut_fitsAt)

/-- **Along the way everything fits, and so does the tree in the end.** -/
theorem run_fits {place : Place} {tokens : List Token} (hframes : FramesFit frames)
    (hplace : place.FitsAt frames.length) : (run place frames tokens).1.Fits maxDepth := by
  fun_induction run place frames tokens with
  | case1 place frames => exact cut_fits place.atEnd_fitsAt
  | case2 place frames token tokens frame next hstep ih =>
    have hmove := Place.step_fitsAt hstep hplace
    cases frame with
    | none => exact ih hframes hmove
    | some frame => exact ih ⟨hmove.1, hframes⟩ hmove.2
  | case3 place frames token tokens tree hstep =>
    have hmove := Place.step_fitsAt hstep hplace
    exact cut_fits hmove
  | case4 place token tokens tree hstep =>
    have hmove := Place.step_fitsAt hstep hplace
    exact hmove maxDepth (Nat.zero_add _)
  | case5 place token tokens tree frame frames hstep ih =>
    have hmove := Place.step_fitsAt hstep hplace
    exact ih hframes.2 (Frame.resume_fitsAt hframes.1 hmove)

/-- **The tree of any text fits.** -/
theorem ofTokens_fits (tokens : List Token) : (ofTokens tokens).1.Fits maxDepth :=
  run_fits trivial trivial

end AccessTransformer.Json.Tree
