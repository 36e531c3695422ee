import MarkdownWeave.Proofs.Metadata.Precedence

/-!
# Complete documents

A document that has come together with all that it inherits names no parent any more.  A merge
keeps what the parent has under the name for parents, and drops what the child has there; so in the
end there is what the topmost document has, and that names none.  To complete a complete document
changes nothing, and asks for nothing.

## Main results

* `Inherits.get?_extendsKey` — **what a complete document has in the place of a parent is what the
  topmost document has there.**
* `inherit_complete` — a complete document is a fixed point, for every resolver and every guard.
-/

namespace MarkdownWeave

/-- The topmost document names no parent. -/
theorem Lineage.exists_top {r : Resolver} {d : Document} {chain : List Document}
    (h : Lineage r d chain) : ∃ below top, chain = below ++ [top] ∧ top.parent? = .ok none := by
  induction h with
  | @top d hp => exact ⟨[], d, rfl, hp⟩
  | @parent d e path chain _ _ _ ih =>
    obtain ⟨below, top, rfl, hp⟩ := ih
    exact ⟨d :: below, top, rfl, hp⟩

/-- Whether a document has a parent is decided by the entry for it. -/
theorem Document.parent?_congr {d e : Document} (h : d.get? extendsKey = e.get? extendsKey) :
    d.parent? = e.parent? := by
  rw [Document.parent?, Document.parent?, h]

/-- **What a complete document has in the place of a parent is what the topmost document has
there.**  This holds however the keys of the first document are spelled: all others have been read
from texts. -/
theorem Inherits.get?_extendsKey {r : Resolver} {g : Guard} {d complete : Document}
    {x : Traced Document} {calls : List Guard} (h : Inherits r g d x calls)
    (hx : x.outcome = .ok complete) :
    ∃ below top, Lineage r d (below ++ [top]) ∧
      complete.get? extendsKey = top.get? extendsKey := by
  induction h generalizing complete with
  | @top g d hp =>
    cases hx
    exact ⟨[], d, .top hp, rfl⟩
  | invalid _ | circular _ _ | missing _ _ _ | malformed _ _ _ _ => cases hx
  | @parent g d e path x calls hp _ he above ih =>
    cases hy : x.outcome with
    | error f => rw [hy] at hx; cases hx
    | ok parent =>
      rw [hy] at hx
      obtain ⟨body, -, rfl⟩ := Traced.ok_of_map (y := mergeBodies parent.body d.body) hx
      obtain ⟨below, top, hchain, hget⟩ := ih hy
      refine ⟨d :: below, top, .parent hp he hchain, ?_⟩
      -- the parent has been read, and so have all above it
      have hcanon : parent.metadata.Canonical := by
        obtain ⟨t, -, ht⟩ := he
        obtain ⟨chain, -, hcanon, -⟩ := above.lineage hy (Document.canonical_of_parse ht)
        exact hcanon
      calc Metadata.get? (mergeMetadata parent.metadata d.metadata) extendsKey
          = parent.metadata.get? extendsKey := get?_mergeMetadata_extendsKey hcanon d.metadata
        _ = top.get? extendsKey := hget

/-- **A complete document is a fixed point.**  If a document and all that it inherits come together,
then the result has nothing under the name for parents, or null, `false` or the empty text; it is
the very entry of the topmost document.  So the result comes to itself, with whatever resolver and
under whatever guard, and nothing is asked for. -/
theorem inherit_complete (r : Resolver) (g : Guard) (d complete : Document)
    (h : (inherit r d g).outcome = .ok complete) :
    (complete.get? extendsKey = none ∨ complete.get? extendsKey = some .null ∨
        complete.get? extendsKey = some (.bool false) ∨
        complete.get? extendsKey = some (.text [])) ∧
      (∃ below top, Lineage r d (below ++ [top]) ∧
        complete.get? extendsKey = top.get? extendsKey) ∧
      ∀ (s : Resolver) (v : Guard), inherit s complete v = .done complete := by
  obtain ⟨calls, hrun⟩ := inherits_inherit r g d
  obtain ⟨below, top, hchain, hget⟩ := hrun.get?_extendsKey h
  have hnone : complete.parent? = .ok none := by
    obtain ⟨below', top', he, htop⟩ := hchain.exists_top
    obtain ⟨-, he⟩ := List.append_inj' he rfl
    rw [Document.parent?_congr hget, List.singleton_inj.1 he, htop]
  refine ⟨Document.parent?_eq_none_iff.1 hnone, ⟨below, top, hchain, hget⟩, ?_⟩
  intro s v
  exact inherit_top hnone

/-- A document without a parent.  It has an empty entry for one, and another under a tag. -/
def strangeTop : Document :=
  ⟨[(.text extendsKey, .text []), (.tagged "t" (.text extendsKey), .text "lost")], []⟩

/-- A child of that document. -/
def strangeMiddle : Document := ⟨[(.text extendsKey, .text "top")], []⟩

/-- A resolver with these two documents. -/
def strangeResolver : Resolver :=
  .ofAnswers [("middle", .ok "---\nextends: top\n---\n"),
    ("top", .ok "---\nextends: ''\n!t extends: lost\n---\n")]

/-- A child of the child that has not been read from a text.  It has a number as a key, and the name
for parents under a tag as well. -/
def strangeChild : Document :=
  ⟨[(.tagged "u" (.text extendsKey), .text "gone"), (.text extendsKey, .text "middle"),
    (.int 7, .null)], []⟩

/-- What the three documents come to. -/
def strangeComplete : Document :=
  ⟨[(.text extendsKey, .text []), (.tagged "t" (.text extendsKey), .text "lost"),
    (.text "7", .null)], []⟩

/-- Of five entries for a parent those of the topmost document are left, and neither is one. -/
theorem inherit_strangeChild :
    (inherit strangeResolver strangeChild .empty).outcome = .ok strangeComplete ∧
      strangeComplete.get? extendsKey = some (.text []) ∧
      ∀ (s : Resolver) (v : Guard), inherit s strangeComplete v = .done strangeComplete := by
  have hi : (inherit strangeResolver strangeChild .empty).outcome = .ok strangeComplete := by
    have below : strangeChild.parent? = .ok (some "middle") := by decide +kernel
    have above : strangeMiddle.parent? = .ok (some "top") := by decide +kernel
    have top : strangeTop.parent? = .ok none := by decide +kernel
    have hmiddle : strangeResolver.Supplies "middle" strangeMiddle :=
      ⟨_, rfl, by decide +kernel⟩
    have htop : strangeResolver.Supplies "top" strangeTop := ⟨_, rfl, by decide +kernel⟩
    have hrun := Inherits.parent (g := .empty) below (by decide) hmiddle
      (.parent above (by decide) htop (.top top))
    rw [hrun.eq_inherit]
    decide +kernel
  have hfixed := inherit_complete strangeResolver .empty strangeChild strangeComplete hi
  exact ⟨hi, by decide +kernel, hfixed.2.2⟩

end MarkdownWeave
