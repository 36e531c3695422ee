import MarkdownWeave.CommandLine.Run
import MarkdownWeave.Proofs.TwoRuns
import MarkdownWeave.Store

/-!
# What a compilation depends on

The next path that a compilation asks for depends on the texts that it has been given before.  All
the same it depends on nothing else: a resolver that gives the same answers to the requests that
are made, whatever it would say to others, leads to the same requests and to the same end.  So it
is with the command line and the files that it looks at, which is why a run can be worked out with
the files that are known, and be worked out again when one more is.

## Main results

* `compileDocument_follows` — the rule for two compilations with the same variables.
* `compile_eq_of_answer_eq` — with the same answers a compilation is the same.
* `compile_depends_on_fetched` — **a compilation depends on the answers to its requests alone.**
* `CommandLine.plan_eq_of_look_eq` — **a run depends on the files that it looks at alone.**
-/

namespace MarkdownWeave

/-! ### Compilations -/

section Compilation

variable {r r' : Resolver} {source : Text} {vars : Metadata}

theorem compileDocument_follows (r r' : Resolver) (source : Text) (vars : Metadata) :
    Traced.Follows (Resolver.Alike Eq r r') Eq Eq (compileDocument r source vars)
      (compileDocument r' source vars) := by
  have hE : ∀ f : Failure, f = f := fun _ => rfl
  have hbody : ∀ p, Resolver.Alike Eq r r' p → Resolver.Alike Document.SameBody r r' p :=
    fun p hp => hp.imp fun d d' hd => congrArg Document.body hd
  unfold compileDocument
  refine .bind_same hE fun parsed => .bind_same hE fun _ => ?_
  refine (inherit_follows heritable_eq rfl .empty).bind ?_
  rintro complete _ - rfl
  refine .bind_same hE fun _ => .bind_same hE fun _ => ?_
  have hfill : Traced.Follows (Resolver.Alike Document.SameBody r r') Eq Eq
      (substitute r (applyOverrides complete vars))
      (substitute r' (applyOverrides complete vars)) :=
    substitute_follows (Document.SameInUse.refl _) hE fun _ => rfl
  refine (hfill.imp hbody fun _ _ h => h).bind ?_
  rintro filled _ - rfl
  refine .bind_same hE fun _ => ?_
  exact (transclude_follows filled .empty).imp hbody fun _ _ h => h

/-- With the same answers to its requests a compilation is the same. -/
theorem compileDocument_eq_of_answer_eq
    (h : ∀ p ∈ (compileDocument r source vars).fetched, r.answer p = r'.answer p) :
    compileDocument r' source vars = compileDocument r source vars := by
  apply (compileDocument_follows r r' source vars).eq
  intro p hp
  exact Resolver.alike_of_answer_eq (fun _ => rfl) (h p hp)

theorem compile_eq_of_answer_eq
    (h : ∀ p ∈ (compile r source vars).fetched, r.answer p = r'.answer p) :
    compile r' source vars = compile r source vars := by
  rw [compile_fetched] at h
  rw [compile, compile, compileDocument_eq_of_answer_eq h]

/-- **A compilation depends on the answers to its requests alone.**  If two resolvers have the same
answers, texts or failures, to all that is asked of the first, then the second is asked for the same
in the same order, and everything else that happens is the same, too: notices, warnings, the result
or the failure.  So texts in a store that are not asked for can be added, removed and changed. -/
theorem compile_depends_on_fetched (r r' : Resolver) (source : Text) (vars : Metadata)
    (h : ∀ p ∈ (compile r source vars).fetched, r.answer p = r'.answer p) :
    compile r' source vars = compile r source vars ∧
      compileDocument r' source vars = compileDocument r source vars ∧
      ∀ s s' : Store, (∀ p ∈ (compile s.resolver source vars).fetched, s.get? p = s'.get? p) →
        compile s'.resolver source vars = compile s.resolver source vars := by
  refine ⟨compile_eq_of_answer_eq h, ?_, ?_⟩
  · rw [compile_fetched] at h
    exact compileDocument_eq_of_answer_eq h
  · intro s s' hs
    apply compile_eq_of_answer_eq
    intro p hp
    rw [Store.resolver_answer, Store.resolver_answer, hs p hp]

/-- The text of a parent; one of its slots has a document for its value. -/
def frugalBase : Text := "---\nv: '@val'\n---\n{{ v }}\n{{ content }}"

/-- The text of a child of that parent; the document that it refers to is missing. -/
def frugalSource : Text := "---\nextends: base\n---\n@part\n"

/-- A resolver with the documents that are needed. -/
def frugalResolver : Resolver := .ofAnswers [("base", .ok frugalBase), ("val", .ok "V")]

/-- The same documents among others; one is malformed, and one comes after another with its path. -/
def lavishResolver : Resolver :=
  .ofAnswers [("spare", .ok "---\n[\n---\n"), ("val", .ok "V"), ("base", .ok frugalBase),
    ("Part", .ok "@base"), ("base", .ok "other")]

/-- The parent. -/
def frugalParent : Document := ⟨[(.text "v", .text "@val")], "{{ v }}\n{{ content }}"⟩

/-- The child. -/
def frugalChild : Document := ⟨[(.text "extends", .text "base")], "@part\n"⟩

/-- What the child and its parent come to. -/
def frugalComplete : Document := ⟨[(.text "v", .text "@val")], "{{ v }}\n@part\n"⟩

theorem inherit_frugalChild :
    (inherit frugalResolver frugalChild .empty).outcome = .ok frugalComplete ∧
      (inherit frugalResolver frugalChild .empty).fetched = (["base"] : List Text) := by
  have below : frugalChild.parent? = .ok (some "base") := by decide +kernel
  have above : frugalParent.parent? = .ok none := by decide +kernel
  have supplied : frugalResolver.Supplies "base" frugalParent :=
    ⟨frugalBase, by decide +kernel, by decide +kernel⟩
  rw [inherit_of_top_parent below supplied above]
  exact ⟨by decide +kernel, by decide +kernel⟩

theorem compile_frugalSource_fetched :
    (compile frugalResolver frugalSource []).fetched =
      (["base", "val", "part"] : List Text) := by
  have hsource : Document.parse frugalSource = .ok frugalChild := by decide +kernel
  obtain ⟨hcomplete, hparents⟩ := inherit_frugalChild
  have hvars : applyOverrides frugalComplete [] = frugalComplete := rfl
  have hfilled : (substitute frugalResolver frugalComplete).outcome = .ok ⟨[], "V\n@part\n"⟩ := by
    decide +kernel
  have hvalues : (substitute frugalResolver frugalComplete).fetched =
      (["val"] : List Text) := by decide +kernel
  have hincluded : (transclude frugalResolver ⟨[], "V\n@part\n"⟩ .empty).fetched =
      (["part"] : List Text) := by
    rw [Traced.fetched, transclude_events,
      (expands_of_expandWithin 5 .empty _ _ [] (by rfl)).eq_transcludeLines]
    decide +kernel
  rw [← hvars] at hfilled
  rw [compile_fetched_of_stages hsource hcomplete hfilled, hparents, hvars, hvalues, hincluded]
  rfl

/-- Three documents are asked for, one of them in vain, and what else there is makes no
difference. -/
theorem compile_lavishResolver :
    (compile frugalResolver frugalSource []).fetched =
      (["base", "val", "part"] : List Text) ∧
      (∀ p ∈ (compile frugalResolver frugalSource []).fetched,
        frugalResolver.answer p = lavishResolver.answer p) ∧
      compile lavishResolver frugalSource [] = compile frugalResolver frugalSource [] := by
  have hsame : ∀ p ∈ (compile frugalResolver frugalSource []).fetched,
      frugalResolver.answer p = lavishResolver.answer p := by
    rw [compile_frugalSource_fetched]
    decide +kernel
  obtain ⟨h, -⟩ :=
    compile_depends_on_fetched frugalResolver lavishResolver frugalSource [] hsame
  exact ⟨compile_frugalSource_fetched, hsame, h⟩

end Compilation

/-! ### Runs of the command line -/

section Run

variable {disk disk' : Disk} {env : Environment}

theorem Disk.read_congr {path : Text} (h : disk'.look path = disk.look path) :
    disk'.read path = disk.read path := by
  rw [read, read, h]

/-- Loading the settings depends on what is at their path. -/
theorem Settings.load_congr {named : Option Text}
    (h : ∀ path, CommandLine.settingsPath? env named = some path →
      disk'.look path = disk.look path) :
    Settings.load disk' env named = Settings.load disk env named := by
  have hfrom : ∀ path, disk'.look path = disk.look path →
      loadFrom disk' path = loadFrom disk path := by
    intro path hpath
    rw [loadFrom, loadFrom, Disk.read_congr hpath]
  cases named with
  | some path => exact hfrom _ (h _ rfl)
  | none =>
    unfold load
    cases hu : usualPath env with
    | error t => rfl
    | ok path =>
      have hpath : disk'.look path = disk.look path := by
        apply h
        rw [CommandLine.settingsPath?, hu]
        rfl
      have hthere : isThere disk' path = isThere disk path := by rw [isThere, isThere, hpath]
      show (if isThere disk' path then loadFrom disk' path else _) =
        if isThere disk path then loadFrom disk path else _
      rw [hthere, hfrom path hpath]

theorem CommandLine.readSource_congr {input : Option Text} {stdin : List UInt8}
    (h : ∀ path, input = some path → disk'.look path = disk.look path) :
    readSource disk' input stdin = readSource disk input stdin := by
  cases input with
  | none => rfl
  | some path => rw [readSource, readSource, Disk.read_congr (h path rfl)]

theorem CommandLine.compileBelow_fetched (disk : Disk) (limit : Option Nat)
    (vars : List (Text × Text)) (source base : Text) :
    (compileBelow disk limit vars source base).fetched =
      (compile (disk.resolver base limit) source (textVariables vars)).fetched :=
  rfl

/-- A compilation of files depends on the files that it asks for. -/
theorem CommandLine.compileBelow_congr {limit : Option Nat} {vars : List (Text × Text)}
    {source base : Text}
    (h : ∀ p ∈ (compileBelow disk limit vars source base).fetched,
      disk'.look (Path.join base p) = disk.look (Path.join base p)) :
    compileBelow disk' limit vars source base = compileBelow disk limit vars source base := by
  rw [compileBelow_fetched] at h
  rw [compileBelow, compileBelow, compile_eq_of_answer_eq]
  intro p hp
  show Disk.document limit p _ _ = Disk.document limit p _ _
  rw [h p hp]

/-- **A run depends on the files that it looks at alone**: the settings, the source, and the
documents that are asked for. -/
theorem CommandLine.plan_eq_of_look_eq {a : Arguments} {stdin : List UInt8}
    (h : ∀ path ∈ consulted env a (plan disk env a stdin), disk'.look path = disk.look path) :
    plan disk' env a stdin = plan disk env a stdin := by
  simp only [consulted, List.forall_mem_append] at h
  obtain ⟨⟨hsettings, hinput⟩, hasked⟩ := h
  have hload : Settings.load disk' env a.settings = Settings.load disk env a.settings := by
    apply Settings.load_congr
    intro path hpath
    exact hsettings path (by simp [hpath])
  have hsource : readSource disk' a.input stdin = readSource disk a.input stdin := by
    apply readSource_congr
    intro path hpath
    exact hinput path (by simp [hpath])
  unfold plan at hasked ⊢
  rw [hload, hsource]
  split
  · rfl
  · next settings notice hl =>
    rw [hl] at hasked
    dsimp only at hasked ⊢
    split
    · rfl
    · next vars hv =>
      rw [hv] at hasked
      dsimp only at hasked ⊢
      split
      · rfl
      · next source hs =>
        rw [hs] at hasked
        dsimp only at hasked ⊢
        split
        · rfl
        · next base hb =>
          rw [hb] at hasked
          -- the notice about the settings asks for nothing
          have hcompile : compileBelow disk' settings.sizeLimit vars source base =
              compileBelow disk settings.sizeLimit vars source base := by
            apply compileBelow_congr
            intro p hp
            apply hasked
            rw [askedFor, hb]
            exact List.mem_map.2 ⟨p, hp, rfl⟩
          rw [hcompile]

end Run

end MarkdownWeave
