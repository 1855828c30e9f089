import QueryGateway.Files.Tree

/-!
# What paths come to

A walk forgets a name when it steps back from it. What is left of a path is its trail: how far it
has gone up from where it started, and the names that it has gone down from there. The trail is a
matter of the path alone. With a root it says the place (`FileTree.place_eq`): the root without its
last names, as many as the path has gone up, and the names of the trail behind it.

The trail does not say whether a path stays below the root, because one that has gone up may come
down again by the names that it has passed on the way up, and these are the root's own
(`Trail.wayBack`). `FileTree.place_eq_append_iff` and `FileTree.root_isPrefix_place_iff` say that
this is the only way back.
-/

namespace QueryGateway

/-- **What parts come to:** steps up, and then names. A step up takes back the name before it, so
those that are left over all stand in front. -/
structure Trail where
  /-- How many directories the parts go up from the start. -/
  climbed : Nat
  /-- The names from there, the last one in front. -/
  passed : List String

namespace Trail

/-- The trail that one more part makes. A step to the parent takes the last name back, and only if
there is none does it lead further up. -/
def step : Trail → PathPart → Trail
  | ⟨climbed, passed⟩, .name s => ⟨climbed, s :: passed⟩
  | ⟨climbed, []⟩, .parent => ⟨climbed + 1, []⟩
  | ⟨climbed, _ :: passed⟩, .parent => ⟨climbed, passed⟩

/-- The names in the order in which they are written. -/
def names (trail : Trail) : List String :=
  trail.passed.reverse

/-- **The way back into a root:** its last names, as many as the trail has gone up. -/
def wayBack (trail : Trail) (root : List String) : List String :=
  root.drop (root.length - trail.climbed)

/-- Where a trail leads from a place. Both places are held in reverse, so the steps up are taken off
the front. -/
def follow (trail : Trail) (here : List String) : List String :=
  trail.passed ++ here.drop trail.climbed

theorem follow_step (trail : Trail) (here : List String) (part : PathPart) :
    (trail.step part).follow here = FileTree.step (trail.follow here) part := by
  obtain ⟨climbed, passed⟩ := trail
  cases part with
  | name s => rfl
  | parent =>
    cases passed with
    | nil => exact List.tail_drop.symm
    | cons s passed => rfl

/-- **A walk over parts is a walk over their trail.** -/
theorem follow_foldl (trail : Trail) (here : List String) (parts : List PathPart) :
    (parts.foldl step trail).follow here = parts.foldl FileTree.step (trail.follow here) := by
  induction parts generalizing trail with
  | nil => rfl
  | cons part parts ih => rw [List.foldl_cons, List.foldl_cons, ih, follow_step]

end Trail

/-- The trail of a path. -/
def FilePath.trail (path : FilePath) : Trail :=
  path.parts.foldl Trail.step ⟨0, []⟩

namespace FileTree

variable {root : List String} {path : FilePath}

/-- **The place of a path:** what is left of the root, and the names of the trail. -/
theorem place_eq (root : List String) (path : FilePath) :
    place root path.parts =
      root.take (root.length - path.trail.climbed) ++ path.trail.names := by
  have hfollow : path.trail.follow root.reverse = path.parts.foldl step root.reverse :=
    Trail.follow_foldl ⟨0, []⟩ root.reverse path.parts
  rw [place, ← hfollow, Trail.follow, List.reverse_append, List.drop_reverse, List.reverse_reverse]
  rfl

/-- **Below the root by some names:** the trail comes back by the root's own names, and goes on by
these. With one name the place is a child of the root. -/
theorem place_eq_append_iff {names : List String} :
    place root path.parts = root ++ names ↔
      path.trail.names = path.trail.wayBack root ++ names := by
  -- the root is what is left of it and the way back, so the two places begin alike
  have hroot : root ++ names =
      root.take (root.length - path.trail.climbed) ++ (path.trail.wayBack root ++ names) := by
    rw [← List.append_assoc, Trail.wayBack, List.take_append_drop]
  rw [place_eq, hroot, List.append_cancel_left_eq]

/-- **A path ends below the root** exactly if its trail comes back by the root's own names. -/
theorem root_isPrefix_place_iff :
    root <+: place root path.parts ↔ path.trail.wayBack root <+: path.trail.names := by
  constructor
  · rintro ⟨names, hplace⟩
    exact ⟨names, (place_eq_append_iff.1 hplace.symm).symm⟩
  · rintro ⟨names, htrail⟩
    exact ⟨names, (place_eq_append_iff.2 htrail.symm).symm⟩

end FileTree

end QueryGateway
