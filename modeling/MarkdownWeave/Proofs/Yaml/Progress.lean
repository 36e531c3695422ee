import MarkdownWeave.Proofs.Yaml.Remainder
import MarkdownWeave.Yaml.Token.Lexer

/-!
# The lexer gets on

The lexer is allowed a number of steps, so that it comes to an end whatever happens.  Every token
takes a character from the text, so there are never more steps than characters, and how many are
allowed beyond that does not matter.  In particular a text has the same tokens if its line breaks
are spelled with more characters.

## Main definitions

* `Yaml.Lexer.Advances` — what is read takes a character.

## Main results

* `Yaml.Lexer.advances_token?` — **every token takes a character.**
* `Yaml.Lexer.run?_of_left_lt` — enough steps are as good as any number of them.
* `Yaml.tokens?_congr` — **the spelling of line breaks makes no difference to tokens.**
-/

namespace MarkdownWeave

namespace Yaml

open Place

/-! ### Tokens -/

namespace Lexer

theorem place_dropKey? (x : Lexer) : Yields x.dropKey? fun y => y.place = x.place := by
  unfold dropKey?
  split
  · exact .ite (fun _ => .none) fun _ => .pure rfl
  · exact .pure rfl

theorem place_markKey? (x : Lexer) : Yields x.markKey? fun y => y.place = x.place :=
  .ite (fun _ => (place_dropKey? x).bind fun _ hy => .pure hy) fun _ => .pure rfl

theorem place_dropStale? (x : Lexer) : Yields x.dropStale? fun y => y.place = x.place :=
  .ite (fun _ => .none) fun _ => .pure rfl

@[simp] theorem place_openBlock (column n : Nat) (t : Token) (x : Lexer) :
    (x.openBlock column n t).place = x.place := by
  unfold openBlock
  split <;> rfl

theorem place_openBlockHere? (t : Token) (x : Lexer) :
    Yields (x.openBlockHere? t) fun y => y.place = x.place :=
  .ite (fun _ => .pure rfl) fun _ => .ite (fun _ => .pure (place_openBlock _ _ t x)) fun _ => .none

@[simp] theorem place_closeBlocks (column : Int) (x : Lexer) :
    (x.closeBlocks column).place = x.place := by
  have hgo : ∀ (ns : List Int) (x : Lexer), (closeBlocks.go column ns x).place = x.place := by
    intro ns
    induction ns with
    | nil => intro x; rfl
    | cons n ns ih =>
      intro x
      rw [closeBlocks.go]
      split
      · rw [ih]; rfl
      · rfl
  unfold closeBlocks
  split
  · rfl
  · exact hgo _ x

theorem left_skipGap_le (fuel : Nat) (x : Lexer) :
    (x.skipGap fuel).place.left ≤ x.place.left := by
  induction fuel generalizing x with
  | zero => exact le_rfl
  | succ fuel ih =>
    rw [skipGap]
    generalize hp : (if x.place.column == 0 && x.place.rest.head? == some byteOrderMark
      then x.place.step else x.place) = p
    have hmark : p.left ≤ x.place.left := by
      rw [← hp]
      split
      · exact left_step_le x.place
      · exact le_rfl
    have hline := ((left_skipComment_le _).trans (left_skipWhile_le
      (fun c => c == ' ' || ((x.inFlow || !x.keyAllowed) && c == '\t')) p)).trans hmark
    split
    · exact (ih _).trans ((left_newLine_le _).trans hline)
    · exact hline

/-- What is read, if it can be read, takes at least one character. -/
def Advances (x : Lexer) (o : Option Lexer) : Prop := Yields o fun y => y.place.left < x.place.left

section Advances

variable {x : Lexer} (hx : 0 < x.place.left)
include hx

theorem advances_atMargin? {read : Place → Option (Token × Place)} (hread : Takes read) :
    Advances x (x.atMargin? read) := by
  refine (place_dropKey? _).bind fun y hy => (hread _).bind fun r hr => .pure ?_
  rw [hy, place_closeBlocks] at hr
  dsimp only
  omega

theorem advances_node? {read : Place → Option (Token × Place)} (hread : Takes read) :
    Advances x (x.node? read) := by
  refine (place_markKey? x).bind fun y hy => (hread _).bind fun r hr => .pure ?_
  rw [hy] at hr
  dsimp only
  omega

theorem left_take_lt {y : Lexer} (hy : y.place = x.place) (t : Token) :
    (y.take t 1).place.left < x.place.left := by
  show (y.place.skip 1).left < x.place.left
  rw [left_skip, hy]
  omega

theorem advances_openFlow? (t : Token) : Advances x (x.openFlow? t) :=
  (place_markKey? x).bind fun _ hy => .pure (left_take_lt hx hy t)

theorem advances_closeFlow? (t : Token) : Advances x (x.closeFlow? t) :=
  (place_dropKey? x).bind fun _ hy => .pure (left_take_lt hx hy t)

theorem advances_comma? : Advances x x.comma? :=
  (place_dropKey? x).bind fun _ hy => .pure (left_take_lt hx hy .flowEntry)

theorem advances_item? : Advances x x.item? := by
  refine (place_openBlockHere? _ x).bind fun y hy => (place_dropKey? y).bind fun z hz => .pure ?_
  exact left_take_lt hx (hz.trans hy) .blockEntry

theorem advances_explicitKey? : Advances x x.explicitKey? := by
  refine (place_openBlockHere? _ x).bind fun y hy => (place_dropKey? y).bind fun z hz => .pure ?_
  exact left_take_lt hx (hz.trans hy) .key

theorem advances_value? : Advances x x.value? := by
  unfold value?
  split
  · exact .pure (left_take_lt hx (place_openBlock _ _ _ (x.insertAt _ .key)) .value)
  · exact (place_openBlockHere? _ x).bind fun _ hy => .pure (left_take_lt hx hy .value)

theorem advances_block? (folded : Bool) : Advances x (x.block? folded) := by
  refine (place_dropKey? x).bind fun y hy => (takes_blockScalar? _ _ _).bind fun r hr => .pure ?_
  rw [hy] at hr
  dsimp only
  omega

end Advances

/-- A word that is no word at all stands at a line break, if it begins with none of the other
characters that end words. -/
theorem isBreak_of_plainWord? {flow : Bool} {c : Char} {cs : Text} (hs : isSpacing c = false)
    (hcolon : c = ':' → atGap cs = false) (hmark : isFlowMark c = false)
    (h : plainWord? flow (c :: cs) = some 0) : isBreak c = true := by
  by_contra hb
  have hgap : ¬ (c == ':' && atGap cs) = true := by
    rw [Bool.and_eq_true, beq_iff_eq]
    rintro ⟨rfl, hcs⟩
    rw [hcolon rfl] at hcs
    cases hcs
  rw [plainWord?, if_neg (by simp [hs, hb]), if_neg hgap] at h
  split at h
  · cases h
  · rw [if_neg (by simp [hmark])] at h
    obtain ⟨n, -, hn⟩ := Option.map_eq_some_iff.1 h
    omega

theorem advances_plain? {x : Lexer} {c : Char} {cs : Text} (hp : x.place.rest = c :: cs)
    (hm : x.place.isDocumentMarker = false) (hs : isSpacing c = false)
    (hbegin : isIndicator c = false ∨ c = '-' ∨ c = '?' ∨ c = ':')
    (hcolon : c = ':' → atGap cs = false) : Advances x x.plain? := by
  -- of the indicators only these three begin a plain scalar
  have hother : ∀ d, isIndicator d = true ∧ d ≠ '-' ∧ d ≠ '?' ∧ d ≠ ':' → c ≠ d := by
    rintro d ⟨hd, hhyphen, hquestion, hcolon⟩ rfl
    simp [hd, hhyphen, hquestion, hcolon] at hbegin
  have hmark : isFlowMark c = false := by
    simp [isFlowMark, hother ',' (by decide), hother '[' (by decide), hother ']' (by decide),
      hother '{' (by decide), hother '}' (by decide)]
  refine (place_markKey? x).bind fun y hy => ?_
  rw [← hy] at hp hm
  refine (yields_plainScalar? _ _ hp hm (hother '#' (by decide))
    (isBreak_of_plainWord? hs hcolon hmark)).bind fun r hr => .pure ?_
  rw [← hy]
  exact hr

/-- **Every token takes a character.** -/
theorem advances_token? {x : Lexer} {c : Char} {cs : Text} (hp : x.place.rest = c :: cs) :
    Advances x (x.token? c cs) := by
  have hx : 0 < x.place.left := left_pos_of_rest hp
  refine .ite (fun _ => advances_atMargin? hx takes_directive?) fun _ => ?_
  refine .ite (fun _ => advances_atMargin? hx (takes_skip _ (by decide))) fun hhyphens => ?_
  refine .ite (fun _ => advances_atMargin? hx (takes_skip _ (by decide))) fun hdots => ?_
  refine .ite (fun _ => advances_openFlow? hx _) fun _ => ?_
  refine .ite (fun _ => advances_openFlow? hx _) fun _ => ?_
  refine .ite (fun _ => advances_closeFlow? hx _) fun _ => ?_
  refine .ite (fun _ => advances_closeFlow? hx _) fun _ => ?_
  refine .ite (fun _ => advances_comma? hx) fun _ => ?_
  refine .ite (fun _ => advances_item? hx) fun _ => ?_
  refine .ite (fun _ => advances_explicitKey? hx) fun _ => ?_
  refine .ite (fun _ => advances_value? hx) fun hcolon => ?_
  refine .ite (fun _ => advances_node? hx (takes_anchorName?.map fun _ => rfl)) fun _ => ?_
  refine .ite (fun _ => advances_node? hx (takes_anchorName?.map fun _ => rfl)) fun _ => ?_
  refine .ite (fun _ => advances_node? hx ((takes_tag? _).map fun _ => rfl)) fun _ => ?_
  refine .ite (fun _ => advances_block? hx false) fun _ => ?_
  refine .ite (fun _ => advances_block? hx true) fun _ => ?_
  refine .ite (fun _ => advances_node? hx (takes_singleQuoted?.map fun _ => rfl)) fun _ => ?_
  refine .ite (fun _ => advances_node? hx (takes_doubleQuoted?.map fun _ => rfl)) fun _ => ?_
  refine .ite (fun hplain => ?_) fun _ => .none
  simp only [Bool.and_eq_true, Bool.or_eq_true, Bool.not_eq_true', beq_iff_eq] at hplain
  refine advances_plain? hp (by simp [isDocumentMarker, hhyphens, hdots]) hplain.1 ?_ ?_
  · rcases hplain.2 with (h | ⟨h, -⟩) | ⟨-, h⟩
    · exact Or.inl h
    · exact Or.inr (Or.inl h)
    · exact Or.inr (Or.inr h)
  · rintro rfl
    have hgap : x.inFlow = false ∧ atGap cs = false := by simpa using hcolon
    exact hgap.2

/-! ### Steps -/

/-- A step takes a character, or there are none left behind it. -/
theorem advances_next? (x : Lexer) :
    Yields x.next? fun y => y.place.rest ≠ [] → y.place.left < x.place.left := by
  have hgap := left_skipGap_le (x.place.rest.length + 1) x
  refine (place_dropStale? _).bind fun y hy => ?_
  dsimp only
  split
  · next hnil =>
    refine (place_dropKey? _).imp fun z hz hne => absurd ?_ hne
    rw [hz, place_closeBlocks, hnil]
  · next c cs hcons =>
    refine (advances_token? hcons).imp fun z hz _ => ?_
    rw [place_closeBlocks, hy] at hz
    omega

/-- **Enough steps are as good as any number of them.** -/
theorem run?_of_left_lt {n m : Nat} {x : Lexer} (hn : x.place.left < n) (hm : x.place.left < m) :
    run? n x = run? m x := by
  induction n generalizing m x with
  | zero => omega
  | succ n ih =>
    obtain ⟨m, rfl⟩ : ∃ k, m = k + 1 := ⟨m - 1, by omega⟩
    rw [run?, run?]
    cases hy : x.next? with
    | none => rfl
    | some y =>
      rw [Option.bind_eq_bind, Option.bind_some, Option.bind_some]
      by_cases hnil : y.place.rest.isEmpty = true
      · rw [if_pos hnil, if_pos hnil]
      · have hlt := advances_next? x y hy (by simpa using hnil)
        rw [if_neg hnil, if_neg hnil]
        exact ih (by omega) (by omega)

end Lexer

/-! ### Line breaks -/

theorem length_unifyBreaks_le (t : Text) : (unifyBreaks t).length ≤ t.length := by
  induction t using unifyBreaks.induct with
  | case1 => exact le_rfl
  | case2 cs ih =>
    rw [unifyBreaks, List.length_cons, List.length_cons, List.length_cons]
    omega
  | case3 c cs h ih =>
    rw [unifyBreaks, List.length_cons, List.length_cons]
    · omega
    · exact h

/-- **Texts that differ in the spelling of their line breaks have the same tokens.**  The longer one
is allowed more steps, and needs no more. -/
theorem tokens?_congr {s t : Text} (hbreaks : unifyBreaks s = unifyBreaks t)
    (hallowed : s.all isAllowed = t.all isAllowed) : tokens? s = tokens? t := by
  have hs : (unifyBreaks t).length < s.length + 1 := by
    rw [← hbreaks]
    exact Nat.lt_succ_of_le (length_unifyBreaks_le s)
  have ht : (unifyBreaks t).length < t.length + 1 := Nat.lt_succ_of_le (length_unifyBreaks_le t)
  rw [tokens?, tokens?, hallowed, hbreaks,
    Lexer.run?_of_left_lt (x := Lexer.start (unifyBreaks t)) hs ht]

end Yaml

end MarkdownWeave
