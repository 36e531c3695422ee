import MarkdownWeave.Proofs.Lists
import MarkdownWeave.Proofs.Slots.Filling

/-!
# What a substitution asks for

Before anything is asked for, every name in the body is looked up, in the order in which the names
occur; the first that is missing ends the substitution.  Then there is one request for each name
whose value refers to a document, in the same order, up to the first request that fails.

## Main definitions

* `Slot.InOrder t names` — the names in a text, in the order in which they first occur.
* `Metadata.requests` — the paths that the values of some names refer to.
* `Answers.Asks ps x` — `x` asks for paths until one cannot be loaded.

## Main results

* `Slot.names_inOrder` — names are found in the order in which they first occur.
* `Answers.substitute_of_undefined` — the first name that is missing ends the substitution before it
  has asked for anything.
* `Answers.substitute_asks` — **one request for each name, until one fails.**
-/

namespace MarkdownWeave

namespace Slot

/-! ### The order of names -/

/-- The slots of a text come in the order of their places. -/
theorem located_pairwise {i : Nat} {ps : List Piece} (h : ∀ s, .slot s ∈ ps → s.IsForm) :
    (located i ps).Pairwise fun a b => a.1 < b.1 := by
  induction ps generalizing i with
  | nil => exact List.Pairwise.nil
  | cons p ps ih =>
    have hps : ∀ s, .slot s ∈ ps → s.IsForm := fun s hs => h s (List.mem_cons_of_mem p hs)
    cases p with
    | verbatim c => exact ih hps
    | slot s =>
      rw [located_slot, List.pairwise_cons]
      refine ⟨?_, ih hps⟩
      rintro ⟨j, s'⟩ hj
      obtain ⟨k, rfl, -⟩ := mem_located.1 hj
      have hlen := (h s List.mem_cons_self).braces.2.2
      show i < i + s.source.length + k
      omega

theorem map_located (i : Nat) (ps : List Piece) :
    (located i ps).map Prod.snd = ps.filterMap Piece.slot? := by
  induction ps generalizing i with
  | nil => rfl
  | cons p ps ih =>
    cases p with
    | verbatim c => exact ih (i + 1)
    | slot s => exact congrArg (s :: ·) (ih (i + s.source.length))

variable {t : Text}

theorem pairwise_located_pieces (t : Text) :
    (located 0 (pieces t)).Pairwise fun a b => a.1 < b.1 := by
  refine located_pairwise fun s hs => ?_
  obtain ⟨i, hi⟩ := (cutsAt_pieces t).mem_iff.1 hs
  exact hi.1

/-- The names of a text, from the places of its slots. -/
theorem names_eq_located (t : Text) :
    names t = ((located 0 (pieces t)).map fun l => l.2.name).eraseDups := by
  rw [names, all, ← map_located 0, List.map_map]
  rfl

/-- The names of the slots that occur in a text, each once, in the order of their first
occurrences. -/
structure InOrder (t : Text) (names : List Text) : Prop where
  /-- No name is there twice. -/
  nodup : names.Nodup
  /-- The names are those of the slots that occur. -/
  mem_iff : ∀ name, name ∈ names ↔ ∃ i s, OccursAt t i s ∧ s.name = name
  /-- Of two names the first one occurs before the other does. -/
  ordered : names.Pairwise fun a b => ∃ i s, OccursAt t i s ∧ s.name = a ∧
    ∀ j s', OccursAt t j s' → s'.name = b → i < j

/-- Of entries in the order of their places, the values of each are in the order in which they first
occur. -/
theorem pairwise_first {α β : Type} [BEq β] [LawfulBEq β] (f : α → β) {L : List (Nat × α)}
    (h : L.Pairwise fun a b => a.1 < b.1) :
    (L.map fun l => f l.2).eraseDups.Pairwise fun a b =>
      ∃ x ∈ L, f x.2 = a ∧ ∀ y ∈ L, f y.2 = b → x.1 < y.1 := by
  induction L using List.reverseRecOn with
  | nil => simp
  | append_singleton L z ih =>
    obtain ⟨hL, -, hz⟩ := List.pairwise_append.1 h
    have hlast : ∀ x ∈ L, x.1 < z.1 := fun x hx => hz x hx z (List.mem_singleton_self z)
    have hearlier : (L.map fun l => f l.2).eraseDups.Pairwise fun a b =>
        ∃ x ∈ L ++ [z], f x.2 = a ∧ ∀ y ∈ L ++ [z], f y.2 = b → x.1 < y.1 := by
      refine (ih hL).imp ?_
      rintro a b ⟨x, hx, ha, hb⟩
      refine ⟨x, List.mem_append_left _ hx, ha, fun y hy hyb => ?_⟩
      rcases List.mem_append.1 hy with hy | hy
      · exact hb y hy hyb
      · rw [List.mem_singleton.1 hy]
        exact hlast x hx
    rw [List.map_append, List.map_singleton]
    by_cases hnew : f z.2 ∈ L.map fun l => f l.2
    · rwa [eraseDups_concat_of_mem hnew]
    · rw [eraseDups_concat_of_not_mem hnew]
      refine List.pairwise_append.2 ⟨hearlier, List.pairwise_singleton _ _, ?_⟩
      intro a ha b hb
      obtain rfl := List.mem_singleton.1 hb
      obtain ⟨x, hx, rfl⟩ := List.mem_map.1 (List.mem_eraseDups.1 ha)
      refine ⟨x, List.mem_append_left _ hx, rfl, fun y hy hyb => ?_⟩
      -- the last value is new, so that it is not found before its place
      rcases List.mem_append.1 hy with hy | hy
      · exact absurd (hyb ▸ List.mem_map_of_mem hy) hnew
      · rw [List.mem_singleton.1 hy]
        exact hlast x hx

/-- **Names are found in the order in which they first occur.** -/
theorem names_inOrder (t : Text) : InOrder t (names t) := by
  refine ⟨nodup_eraseDups _, fun name => mem_names, ?_⟩
  have hcut := cutsAt_pieces t
  rw [names_eq_located]
  refine (pairwise_first Slot.name (pairwise_located_pieces t)).imp ?_
  rintro a b ⟨⟨i, s⟩, hi, ha, hb⟩
  refine ⟨i, s, (hcut.mem_located i s).1 hi, ha, fun j s' hj hjb => ?_⟩
  exact hb (j, s') ((hcut.mem_located j s').2 hj) hjb

/-- The first name that passes a test is the name of the first slot whose name passes it. -/
theorem exists_of_find?_names {p : Text → Bool} {name : Text} (h : (names t).find? p = some name) :
    ∃ i s, OccursAt t i s ∧ s.name = name ∧ p name = true ∧
      ∀ j s', OccursAt t j s' → j < i → p s'.name = false := by
  have hcut := cutsAt_pieces t
  rw [names_eq_located, find?_eraseDups, List.find?_map] at h
  obtain ⟨⟨i, s⟩, hfind, rfl⟩ := Option.map_eq_some_iff.1 h
  obtain ⟨hp, before, after, hL, hbefore⟩ := List.find?_eq_some_iff_append.1 hfind
  have hi : (i, s) ∈ located 0 (pieces t) := by
    rw [hL]
    exact List.mem_append_right _ List.mem_cons_self
  refine ⟨i, s, (hcut.mem_located i s).1 hi, rfl, hp, fun j s' hj hlt => ?_⟩
  have hsorted := pairwise_located_pieces t
  have hmem := (hcut.mem_located j s').2 hj
  rw [hL] at hsorted hmem
  rcases List.mem_append.1 hmem with hmem | hmem
  · simpa using hbefore _ hmem
  · -- what is found from there on stands at the same place or behind it
    rcases List.mem_cons.1 hmem with he | hmem
    · obtain ⟨rfl, rfl⟩ := Prod.mk.inj he
      exact absurd hlt (Nat.lt_irrefl _)
    · have hafter := (List.pairwise_cons.1 (List.pairwise_append.1 hsorted).2.1).1 _ hmem
      exact absurd hlt (Nat.not_lt.2 (Nat.le_of_lt hafter))

end Slot

/-! ### One request after the other -/

section Asks

variable {answers : Answers} {α β : Type}

/-- The document at a path can be loaded. -/
def Answers.Loads (answers : Answers) (p : Text) : Prop :=
  ∃ t d, answers p = .ok t ∧ Document.parse t = .ok d

/-- A computation asks for paths, one after the other, and fails if one of them cannot be loaded. -/
inductive Answers.Asks (answers : Answers) : List Text → Traced α → Prop
  /-- All can be loaded. -/
  | all {ps : List Text} {x : Traced α} (hps : ∀ p ∈ ps, answers.Loads p) (hf : x.fetched = ps)
      (ho : ∃ a, x.outcome = .ok a) : answers.Asks ps x
  /-- One has no answer.  Those behind it are not asked for. -/
  | missing {before after : List Text} {p : Text} {f : Failure} {x : Traced α}
      (hps : ∀ q ∈ before, answers.Loads q) (ha : answers p = .error f)
      (hf : x.fetched = before ++ [p]) (ho : x.outcome = .error f) :
      answers.Asks (before ++ p :: after) x
  /-- The answer for one is no document. -/
  | malformed {before after : List Text} {p t : Text} {f : Failure} {x : Traced α}
      (hps : ∀ q ∈ before, answers.Loads q) (ha : answers p = .ok t)
      (hd : Document.parse t = .error f) (hf : x.fetched = before ++ [p])
      (ho : x.outcome = .error f) : answers.Asks (before ++ p :: after) x

/-- Something that asks for nothing and does not fail makes no difference behind it. -/
theorem Answers.Asks.andThen {ps : List Text} {x : Traced α} (h : answers.Asks ps x)
    {f : α → Traced β} (hf : ∀ a, (f a).fetched = [] ∧ ∃ b, (f a).outcome = .ok b) :
    answers.Asks ps (x >>= f) := by
  have herror : ∀ {e : Failure}, x.outcome = .error e → (x >>= f).outcome = .error e := by
    intro e he
    rw [Traced.bind_of_error he]
  cases h with
  | all hps hx ho =>
    obtain ⟨a, ha⟩ := ho
    obtain ⟨hnone, b, hb⟩ := hf a
    refine .all hps ?_ ⟨b, Traced.outcome_bind_eq_ok.2 ⟨a, ha, hb⟩⟩
    rw [Traced.fetched_bind_of_ok ha, hx, hnone, List.append_nil]
  | missing hps ha hx ho =>
    refine .missing hps ha ?_ (herror ho)
    rw [Traced.fetched_bind_of_error ho, hx]
  | malformed hps ha hd hx ho =>
    refine .malformed hps ha hd ?_ (herror ho)
    rw [Traced.fetched_bind_of_error ho, hx]

/-- Something that has asked for one path that could be loaded puts it before the others. -/
theorem Answers.Asks.cons {p : Text} {ps : List Text} {x : Traced β} (h : answers.Asks ps x)
    (hp : answers.Loads p) {y : Traced α} {a : α} (hy : y.outcome = .ok a) (hf : y.fetched = [p])
    {f : α → Traced β} (hx : f a = x) : answers.Asks (p :: ps) (y >>= f) := by
  have hout : (y >>= f).outcome = x.outcome := by rw [Traced.bind_of_ok hy, hx]
  have hfetched : (y >>= f).fetched = p :: x.fetched := by
    rw [Traced.fetched_bind_of_ok hy, hf, hx]
    rfl
  cases h with
  | all hps hx ho =>
    exact .all (List.forall_mem_cons.2 ⟨hp, hps⟩) (by rw [hfetched, hx]) (by rwa [hout])
  | missing hps ha hx ho =>
    exact .missing (List.forall_mem_cons.2 ⟨hp, hps⟩) ha (by rw [hfetched, hx]; rfl) (by rwa [hout])
  | malformed hps ha hd hx ho =>
    exact .malformed (List.forall_mem_cons.2 ⟨hp, hps⟩) ha hd (by rw [hfetched, hx]; rfl)
      (by rwa [hout])

/-- The paths that the values of some names refer to. -/
def Metadata.requests (m : Metadata) (names : List Text) : List Text :=
  names.filterMap fun name => (m.get? name).bind Value.path?

theorem Answers.renderAll_cons (answers : Answers) (m : Metadata) (name : Text)
    (names : List Text) :
    answers.renderAll m (name :: names) =
      answers.render ((m.get? name).getD .null) >>= fun t =>
        answers.renderAll m names >>= fun values => pure ((name, t) :: values) := by
  rw [renderAll, List.mapM_cons, bind_assoc]
  rfl

/-- **Bringing together the texts of values asks for the paths that they refer to.** -/
theorem Answers.renderAll_asks (answers : Answers) (m : Metadata) (names : List Text) :
    answers.Asks (m.requests names) (answers.renderAll m names) := by
  induction names with
  | nil => exact .all (by simp [Metadata.requests]) rfl ⟨[], rfl⟩
  | cons name names ih =>
    have hrest : ∀ t, answers.Asks (m.requests names)
        (answers.renderAll m names >>= fun values => pure ((name, t) :: values)) :=
      fun t => ih.andThen fun values => ⟨rfl, _, rfl⟩
    rw [renderAll_cons, Metadata.requests, List.filterMap_cons]
    cases hv : ((m.get? name).getD .null).path? with
    | none =>
      have hnone : (m.get? name).bind Value.path? = none := by
        cases hget : m.get? name with
        | none => rfl
        | some v => rwa [hget] at hv
      obtain ⟨t, ht⟩ := answers.render_of_path?_eq_none hv
      rw [hnone, ht, Traced.done_bind]
      exact hrest t
    | some p =>
      have hsome : (m.get? name).bind Value.path? = some p := by
        cases hget : m.get? name with
        | none => rw [hget] at hv; cases hv
        | some v => rwa [hget] at hv
      have hrender := answers.render_of_path? hv
      rw [hsome, hrender]
      cases ha : answers p with
      | error f =>
        show answers.Asks ([] ++ p :: m.requests names) _
        exact .missing (by simp) ha rfl rfl
      | ok t =>
        cases hd : Document.parse t with
        | error f =>
          have hfail : ((Except.ok t).bind Document.parse).map Document.body = .error f := by
            rw [Except.bind, hd]
            rfl
          rw [hfail]
          show answers.Asks ([] ++ p :: m.requests names) _
          exact .malformed (by simp) ha hd rfl rfl
        | ok d =>
          have hbody : ((Except.ok t).bind Document.parse).map Document.body = .ok d.body := by
            rw [Except.bind, hd]
            rfl
          exact (hrest d.body).cons ⟨t, d, ha, hd⟩ hbody rfl rfl

/-- The first name that is missing ends a substitution before it has asked for anything. -/
theorem Answers.substitute_of_undefined {d : Document} {name : Text}
    (h : (Slot.names d.body).find? (fun name => !d.metadata.has name) = some name) :
    answers.substitute d = .fail (undefinedName name d.metadata) := by
  unfold substitute
  rw [h]

theorem outputMetadata_fetched (m : Metadata) : (outputMetadata m).fetched = [] := by
  unfold outputMetadata
  split <;> rfl

/-- **There is one request for each name whose value refers to a document**, until one fails. -/
theorem Answers.substitute_asks {d : Document}
    (h : ∀ name ∈ Slot.names d.body, d.metadata.has name) :
    answers.Asks (d.metadata.requests (Slot.names d.body)) (answers.substitute d) := by
  have hfind : (Slot.names d.body).find? (fun name => !d.metadata.has name) = none := by
    rw [List.find?_eq_none]
    intro name hname
    simp [h name hname]
  unfold substitute
  rw [hfind]
  refine (answers.renderAll_asks d.metadata (Slot.names d.body)).andThen fun values => ?_
  -- what is done with the texts asks for nothing more
  have houtput := outputMetadata_outcome d.metadata
  refine ⟨?_, _, Traced.outcome_bind_eq_ok.2
    ⟨(), rfl, Traced.outcome_bind_eq_ok.2 ⟨_, houtput, rfl⟩⟩⟩
  rw [Traced.fetched_bind_of_ok rfl, Traced.fetched_bind_of_ok houtput, outputMetadata_fetched]
  rfl

end Asks

end MarkdownWeave
