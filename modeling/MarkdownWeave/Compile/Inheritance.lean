import MarkdownWeave.Compile.ContentSlot
import MarkdownWeave.Compile.Guard
import MarkdownWeave.Resolver
import MarkdownWeave.Value.Json
import MarkdownWeave.Value.Outline

/-!
# Inheritance

A document can name a parent.  Its body then goes into the slot of the parent's body, or behind it,
and it takes over the metadata that it does not define itself.  Parents can have parents.

## Main definitions

* `Document.parent?` — the path of the parent.
* `mergeBodies`, `mergeMetadata` — a parent and a child put together.
* `inherit` — a document together with all that it inherits.
-/

namespace MarkdownWeave

/-- The metadata key that names the parent. -/
def extendsKey : Text := "extends"

/-- The path of the parent of a document.  Null, `false` and the empty text mean that there is none;
what is no text is refused. -/
def Document.parent? (d : Document) : Except Failure (Option Text) :=
  match d.get? extendsKey with
  | none => .ok none
  | some .null => .ok none
  | some (.bool false) => .ok none
  | some (.text []) => .ok none
  | some (.text (c :: cs)) => .ok (some (c :: cs))
  | some v => .error (.invalidExtends (v.faithfulJson?.getD v.outline))

/-- The body of a parent with the body of its child in the one slot for it.  Without a slot the
child's body comes behind the parent's, after an empty line if neither is empty. -/
def mergeBodies (parent child : Text) : Except Failure Text :=
  match (ContentSlot.spans parent).length with
  | 0 =>
    .ok (if parent.isEmpty || child.isEmpty then parent ++ child
      else parent ++ ['\n', '\n'] ++ child)
  | 1 => .ok (ContentSlot.replace parent child)
  | count => .error (.multipleContentSlots count)

/-- The metadata of a parent, in normal form, with that of its child put over it.  The key that
names the parent is not taken over from the child. -/
def mergeMetadata (parent child : Metadata) : Metadata :=
  (child.filter fun e => e.1.textUnderTags? != some extendsKey).foldl
    (fun m e => m.insert e.1.normalizeKey e.2) (Metadata.normalize parent)

/-- A child put into its parent. -/
def merge (parent child : Document) : Except Failure Document :=
  (mergeBodies parent.body child.body).map fun body =>
    ⟨mergeMetadata parent.metadata child.metadata, body⟩

/-! ### Following parents -/

/-- The paths that the documents of a resolver name as their parents. -/
def Resolver.parents (r : Resolver) : List Text :=
  r.documents.filterMap fun d => d.parent?.toOption.join

theorem Resolver.mem_parents {r : Resolver} {d : Document} {path : Text} (hd : d ∈ r.documents)
    (hp : d.parent? = .ok (some path)) : path ∈ r.parents :=
  List.mem_filterMap.2 ⟨d, hd, by rw [hp]; rfl⟩

/-- What is left to follow: the parents that are not on the guard, and one more for a parent that
only the document at hand names. -/
def inheritMeasure (r : Resolver) (d : Document) (g : Guard) : Nat :=
  (g.fresh r.parents).length +
    match d.parent? with
    | .ok (some path) => if path ∈ r.parents then 0 else 1
    | _ => 0

theorem inheritMeasure_of_mem {r : Resolver} {d : Document} (hd : d ∈ r.documents) (g : Guard) :
    inheritMeasure r d g = (g.fresh r.parents).length := by
  unfold inheritMeasure
  split
  · rw [if_pos (Resolver.mem_parents hd (by assumption))]
    omega
  · omega

/-- Following a parent leaves less to follow. -/
theorem inheritMeasure_extend_lt {r : Resolver} {d e : Document} {g : Guard} {path : Text}
    (hp : d.parent? = .ok (some path)) (hg : g.contains path = false) (he : e ∈ r.documents) :
    inheritMeasure r e (g.extend path) < inheritMeasure r d g := by
  rw [inheritMeasure_of_mem he]
  unfold inheritMeasure
  rw [hp]
  by_cases hm : path ∈ r.parents
  · simpa [hm] using Guard.length_fresh_extend_lt hm hg
  · have := Guard.length_fresh_extend_le g path r.parents
    simp only [hm, if_false]
    omega

/-- The notice that a parent is followed. -/
def extendingNotice (path : Text) (depth : Nat) : Text :=
  "Extending '" ++ path ++ "' (depth " ++ Text.ofNat depth ++ [')']

/-- A document together with all that it inherits.  The parent is completed first, and must not be
on the guard. -/
def inherit (r : Resolver) (d : Document) (g : Guard) : Traced Document :=
  match _hp : d.parent? with
  | .error f => Traced.fail f
  | .ok none => Traced.done d
  | .ok (some path) =>
    match _hg : g.check path with
    | .error f => Traced.fail f
    | .ok () => do
      Traced.debug (extendingNotice path g.depth)
      let parent ← r.load path
      let complete ← inherit r parent.1 (g.extend path)
      Traced.ofExcept (merge complete d)
termination_by inheritMeasure r d g
decreasing_by
  exact inheritMeasure_extend_lt (by assumption) (Guard.contains_of_check _hg) parent.2

end MarkdownWeave
