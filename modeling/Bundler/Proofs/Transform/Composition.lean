import Bundler.Pipeline
import Bundler.Proofs.Attempt
import Bundler.Proofs.Console.Messages
import Bundler.Proofs.Processing.TextFile

/-!
# Rules are composed

Applying rules to a text is a sequence of steps: for each rule with a match in the path a message, and then
the transforms of its chain, the last one first (`transform_eq_foldlM`). So rules and chains that are put
together are applied one after the other, and the first step that fails ends it. The main statement is
`transform_composes`.
-/

namespace Bundler

variable {σ ε α β ω : Type}

/-! ### Steps one after the other -/

/-- The steps are taken one after the other, each of them once, from a value and a state to another value
and state. -/
inductive Attempt.Takes (perform : α → β → Attempt σ ε α) : List β → α × σ → α × σ → Prop
  | nothing (reached) : Takes perform [] reached reached
  | step {step steps value state next between last}
      (hstep : (perform value step).start state = (.ok next, between))
      (hrest : Takes perform steps (next, between) last) :
      Takes perform (step :: steps) (value, state) last

namespace Attempt

variable {perform : α → β → Attempt σ ε α} {steps : List β} {value last : α} {state after : σ} {fault : ε}

theorem start_foldlM_eq_ok_iff :
    (steps.foldlM perform value).start state = (.ok last, after)
      ↔ Takes perform steps (value, state) (last, after) := by
  induction steps generalizing value state with
  | nil =>
    rw [List.foldlM_nil, start_pure]
    constructor
    · intro h
      cases h
      exact .nothing _
    · intro h
      cases h
      rfl
  | cons step rest ih =>
    rw [List.foldlM_cons, start_bind_eq_ok_iff]
    constructor
    · rintro ⟨next, between, hstep, hrest⟩
      exact .step hstep (ih.1 hrest)
    · intro h
      cases h with
      | step hstep hrest => exact ⟨_, _, hstep, ih.2 hrest⟩

theorem start_foldlM_eq_error_iff :
    (steps.foldlM perform value).start state = (.error fault, after)
      ↔ ∃ earlier step later given between, steps = earlier ++ step :: later ∧
        Takes perform earlier (value, state) (given, between) ∧
        (perform given step).start between = (.error fault, after) := by
  induction steps generalizing value state with
  | nil => simp
  | cons first rest ih =>
    rw [List.foldlM_cons, start_bind_eq_error_iff]
    constructor
    · rintro (hfirst | ⟨next, between, hfirst, hrest⟩)
      · exact ⟨[], first, rest, value, state, rfl, .nothing _, hfirst⟩
      · obtain ⟨earlier, step, later, given, reached, rfl, htakes, hstep⟩ := ih.1 hrest
        exact ⟨first :: earlier, step, later, given, reached, rfl, .step hfirst htakes, hstep⟩
    · rintro ⟨earlier, step, later, given, reached, hsteps, htakes, hstep⟩
      cases htakes with
      | nothing =>
        obtain ⟨rfl, rfl⟩ := List.cons.inj hsteps
        exact .inl hstep
      | step hfirst htakes =>
        obtain ⟨rfl, rfl⟩ := List.cons.inj hsteps
        exact .inr ⟨_, _, hfirst, ih.2 ⟨_, step, later, given, reached, rfl, htakes, hstep⟩⟩

end Attempt

theorem World.start_withMemory (attempt : Attempt ω ε α) (world : World ω) :
    (World.withMemory attempt).start world
      = ((attempt.start world.memory).1, { world with memory := (attempt.start world.memory).2 }) := rfl

theorem World.withMemory_bind (attempt : Attempt ω ε α) (next : α → Attempt ω ε β) :
    World.withMemory (attempt >>= next)
      = World.withMemory attempt >>= fun value => World.withMemory (next value) := by
  refine Attempt.ext fun world => ?_
  rw [Attempt.start_bind, start_withMemory, start_withMemory, Attempt.start_bind]
  rcases attempt.start world.memory with ⟨_ | value, after⟩
  · rfl
  · rfl

theorem Attempt.mapFault_bind {φ : Type} (f : ε → φ) (attempt : Attempt σ ε α)
    (next : α → Attempt σ ε β) :
    mapFault f (attempt >>= next) = mapFault f attempt >>= fun value => mapFault f (next value) := by
  refine ext fun state => ?_
  rw [start_mapFault, start_bind, start_bind, start_mapFault]
  rcases attempt.start state with ⟨_ | value, after⟩
  · rfl
  · rfl

/-! ### Chains -/

namespace Transform

/-- The transform raises something, or gives something that is no text, and leaves the memory so. -/
inductive Refuses (transform : Transform ω) (text : String) (memory : ω) : Raised → ω → Prop
  | raised {raised after} (h : (transform.run text).start memory = (.error raised, after)) :
      Refuses transform text memory raised after
  | other {typeName after} (h : (transform.run text).start memory = (.ok (.other typeName), after)) :
      Refuses transform text memory (notText transform.name typeName) after

theorem start_apply_eq_error_iff {transform : Transform ω} {text : String} {memory after : ω}
    {raised : Raised} :
    (transform.apply text).start memory = (.error raised, after)
      ↔ transform.Refuses text memory raised after := by
  rw [apply, Attempt.start_bind]
  constructor
  · intro h
    rcases hrun : (transform.run text).start memory with ⟨other | ⟨result⟩ | ⟨typeName⟩, between⟩
    · rw [hrun] at h
      cases h
      exact .raised hrun
    · rw [hrun] at h
      cases h
    · rw [hrun] at h
      cases h
      exact .other hrun
  · intro h
    cases h with
    | raised hrun => rw [hrun, Attempt.andThen_error]
    | other hrun => rw [hrun, Attempt.andThen_ok, Attempt.start_throw]

end Transform

theorem applyChain_eq_foldlM (chain : List (Transform ω)) (text : String) :
    applyChain chain text = chain.reverse.foldlM (fun text transform => transform.apply text) text := by
  induction chain with
  | nil => rfl
  | cons transform rest ih =>
    rw [applyChain, ih, List.reverse_cons, List.foldlM_append]
    simp only [List.foldlM_cons, List.foldlM_nil, bind_pure]

theorem applyChain_append (outer inner : List (Transform ω)) (text : String) :
    applyChain (outer ++ inner) text = applyChain inner text >>= applyChain outer := by
  rw [applyChain_eq_foldlM, List.reverse_append, List.foldlM_append, ← applyChain_eq_foldlM]
  exact bind_congr fun value => (applyChain_eq_foldlM outer value).symm

/-- A chain fails at its last transform that refuses what those behind it made of the text. -/
theorem start_applyChain_eq_error_iff {chain : List (Transform ω)} {text : String} {memory after : ω}
    {raised : Raised} :
    (applyChain chain text).start memory = (.error raised, after)
      ↔ ∃ before transform rest given between, chain = before ++ transform :: rest ∧
        (applyChain rest text).start memory = (.ok given, between) ∧
        transform.Refuses given between raised after := by
  simp only [applyChain_eq_foldlM, Attempt.start_foldlM_eq_error_iff, Attempt.start_foldlM_eq_ok_iff,
    Transform.start_apply_eq_error_iff]
  constructor
  · rintro ⟨earlier, transform, later, given, between, hsplit, htakes, hrefuses⟩
    refine ⟨later.reverse, transform, earlier.reverse, given, between, ?_, ?_, hrefuses⟩
    · rw [← List.reverse_reverse chain, hsplit]
      simp
    · rwa [List.reverse_reverse]
  · rintro ⟨before, transform, rest, given, between, rfl, htakes, hrefuses⟩
    exact ⟨rest.reverse, transform, before.reverse, given, between, by simp, htakes, hrefuses⟩

/-! ### Rules -/

namespace Pipeline

/-- A step of applying rules: the message about a rule, or a call of one of its transforms. -/
inductive Step (ω : Type)
  | notice (rule : Rule (Transform ω))
  | call (rule : Rule (Transform ω)) (transform : Transform ω)

def perform (path : FilePath) (text : String) : Step ω → Act ω String
  | .notice rule => do
    World.log .debug (notice rule path)
    return text
  | .call rule transform =>
    Attempt.mapFault (fun raised => .bundle (.transform path rule.test raised))
      (World.withMemory (transform.apply text))

/-- The steps of a rule: its message, and its transforms from the last to the first. -/
def stepsOf (rule : Rule (Transform ω)) : List (Step ω) :=
  .notice rule :: rule.use.reverse.map (.call rule)

/-- The steps of applying rules to a path: those of each rule with a match in it, from the first to the
last. -/
def plan (path : FilePath) (pipeline : Pipeline ω) : List (Step ω) :=
  (pipeline.filter (·.matches path)).flatMap stepsOf

variable {path : FilePath} {pipeline : Pipeline ω} {text : String} {world after : World ω}

theorem plan_append (path : FilePath) (pipeline more : Pipeline ω) :
    plan path (pipeline ++ more) = plan path pipeline ++ plan path more := by
  rw [plan, List.filter_append, List.flatMap_append]
  rfl

theorem applyRule_eq_foldlM (path : FilePath) (rule : Rule (Transform ω)) (text : String) :
    applyRule path rule text = (rule.use.reverse.map (Step.call rule)).foldlM (perform path) text := by
  rw [applyRule, applyChain_eq_foldlM]
  generalize rule.use.reverse = transforms
  induction transforms generalizing text with
  | nil => rfl
  | cons transform rest ih =>
    rw [List.foldlM_cons, World.withMemory_bind, Attempt.mapFault_bind, List.map_cons, List.foldlM_cons]
    exact bind_congr fun value => ih value

theorem transform_eq_foldlM (path : FilePath) (pipeline : Pipeline ω) (text : String) :
    transform path pipeline text = (plan path pipeline).foldlM (perform path) text := by
  induction pipeline generalizing text with
  | nil => rfl
  | cons rule rest ih =>
    rw [transform]
    split
    · next hmatch =>
      have hfilter : (rule :: rest).filter (·.matches path) = rule :: rest.filter (·.matches path) :=
        List.filter_cons_of_pos hmatch
      have hplan : plan path (rule :: rest) = stepsOf rule ++ plan path rest := by
        rw [plan, hfilter, List.flatMap_cons]
        rfl
      rw [hplan, List.foldlM_append, stepsOf, List.foldlM_cons, perform, ← funext ih]
      simp only [bind_assoc, pure_bind, ← applyRule_eq_foldlM]
    · next hmatch =>
      have hfilter : (rule :: rest).filter (·.matches path) = rest.filter (·.matches path) :=
        List.filter_cons_of_neg hmatch
      rw [plan, hfilter, ih]
      rfl

theorem transform_append (path : FilePath) (pipeline more : Pipeline ω) (text : String) :
    transform path (pipeline ++ more) text = transform path pipeline text >>= transform path more := by
  rw [transform_eq_foldlM, plan_append, List.foldlM_append, ← transform_eq_foldlM]
  exact bind_congr fun value => (transform_eq_foldlM path more value).symm

theorem transform_singleton_of_match {rule : Rule (Transform ω)} (hmatch : rule.matches path = true)
    (text : String) :
    transform path [rule] text
      = World.log .debug (notice rule path) >>= fun _ => applyRule path rule text := by
  rw [transform, if_pos hmatch]
  exact bind_congr fun _ => bind_pure _

/-- A message about a rule fails in one way only, and changes nothing then: debug messages are shown, and
a closing tag may stand in the path. -/
theorem start_log_eq_error_iff {rule : Rule (Transform ω)} {fault : Failure} :
    (World.log .debug (notice rule path)).start world = (.error fault, after)
      ↔ ∃ markup, world.console.log .debug (notice rule path) = .error markup ∧
        world.console.threshold ≤ Level.debug.number ∧ Console.MayClose path.toString.toList ∧
        fault = .markup markup ∧ after = world := by
  constructor
  · intro h
    simp only [Attempt.start, World.log] at h
    split at h
    · cases h
    next markup hlog =>
      cases h
      refine ⟨markup, hlog, ?_, ?_, rfl, rfl⟩
      · by_contra hthreshold
        rw [Console.log, Console.receivers, if_neg hthreshold] at hlog
        cases hlog
      · by_contra hpath
        obtain ⟨shown, hshown⟩ := (shows_notice rule hpath).exists_shown world.console.words
        cases hshown.symm.trans (Console.shown_of_deliver hlog)
  · rintro ⟨markup, hlog, -, -, rfl, rfl⟩
    simp only [Attempt.start, World.log, hlog]

/-- How applying rules to a text fails, and what it leaves. The rules before the failing one succeeded,
and so did the message about it and the transforms behind the failing one in its chain; or the message
cannot be shown. -/
inductive Fails (path : FilePath) (pipeline : Pipeline ω) (text : String) (world : World ω) :
    Failure → World ω → Prop
  | refused {earlier later rule given between logged before transform rest last reached raised memory}
      (hsplit : pipeline = earlier ++ rule :: later) (hmatch : rule.matches path = true)
      (hearlier : (Pipeline.transform path earlier text).start world = (.ok given, between))
      (hnotice : (World.log .debug (notice rule path)).start between = (.ok (), logged))
      (hchain : rule.use = before ++ transform :: rest)
      (hrest : (applyChain rest given).start logged.memory = (.ok last, reached))
      (hrefuses : transform.Refuses last reached raised memory) :
      Fails path pipeline text world (.bundle (.transform path rule.test raised)) { logged with memory }
  | unshown {earlier later rule given between markup}
      (hsplit : pipeline = earlier ++ rule :: later) (hmatch : rule.matches path = true)
      (hearlier : (Pipeline.transform path earlier text).start world = (.ok given, between))
      (hlog : between.console.log .debug (notice rule path) = .error markup)
      (hshown : between.console.threshold ≤ Level.debug.number)
      (hpath : Console.MayClose path.toString.toList) :
      Fails path pipeline text world (.markup markup) between

theorem start_transform_eq_error_iff {fault : Failure} :
    (transform path pipeline text).start world = (.error fault, after)
      ↔ ∃ earlier rule later given between, pipeline = earlier ++ rule :: later ∧
        rule.matches path = true ∧ (transform path earlier text).start world = (.ok given, between) ∧
        (transform path [rule] given).start between = (.error fault, after) := by
  constructor
  · intro h
    induction pipeline generalizing text world with
    | nil => cases h
    | cons rule rest ih =>
      rw [← List.singleton_append, transform_append, Attempt.start_bind_eq_error_iff] at h
      rcases h with hrule | ⟨given, between, hrule, hrest⟩
      · refine ⟨[], rule, rest, text, world, rfl, ?_, rfl, hrule⟩
        by_contra hmatch
        rw [transform, if_neg hmatch] at hrule
        cases hrule
      · obtain ⟨earlier, failing, later, last, reached, rfl, hmatch, hearlier, hfails⟩ := ih hrest
        refine ⟨rule :: earlier, failing, later, last, reached, rfl, hmatch, ?_, hfails⟩
        rw [← List.singleton_append, transform_append, Attempt.start_bind, hrule, Attempt.andThen_ok,
          hearlier]
  · rintro ⟨earlier, rule, later, given, between, rfl, hmatch, hearlier, hfails⟩
    rw [transform_append, Attempt.start_bind, hearlier, Attempt.andThen_ok, ← List.singleton_append,
      transform_append, Attempt.start_bind, hfails, Attempt.andThen_error]

theorem start_transform_eq_error_iff_fails {fault : Failure} :
    (transform path pipeline text).start world = (.error fault, after)
      ↔ Fails path pipeline text world fault after := by
  rw [start_transform_eq_error_iff]
  constructor
  · rintro ⟨earlier, rule, later, given, between, hsplit, hmatch, hearlier, hfails⟩
    rw [transform_singleton_of_match hmatch, Attempt.start_bind_eq_error_iff] at hfails
    rcases hfails with hnotice | ⟨⟨⟩, logged, hnotice, hrule⟩
    · obtain ⟨markup, hlog, hshown, hpath, rfl, rfl⟩ := start_log_eq_error_iff.1 hnotice
      exact .unshown hsplit hmatch hearlier hlog hshown hpath
    · rw [applyRule, Attempt.start_mapFault, World.start_withMemory] at hrule
      obtain ⟨hresult, rfl⟩ := Prod.ext_iff.1 hrule
      obtain ⟨raised, hraised, rfl⟩ := mapError_eq_error_iff.1 hresult
      obtain ⟨before, transform, rest, last, reached, hchain, hrest, hrefuses⟩ :=
        start_applyChain_eq_error_iff.1 (Prod.ext hraised rfl)
      exact .refused hsplit hmatch hearlier hnotice hchain hrest hrefuses
  · intro h
    cases h with
    | @refused earlier later rule given between logged before transform rest last reached raised memory
        hsplit hmatch hearlier hnotice hchain hrest hrefuses =>
      have hraises : (applyChain rule.use given).start logged.memory = (.error raised, memory) :=
        start_applyChain_eq_error_iff.2 ⟨before, transform, rest, last, reached, hchain, hrest, hrefuses⟩
      refine ⟨earlier, rule, later, given, between, hsplit, hmatch, hearlier, ?_⟩
      rw [transform_singleton_of_match hmatch, Attempt.start_bind, hnotice, Attempt.andThen_ok, applyRule,
        Attempt.start_mapFault, World.start_withMemory, hraises]
      rfl
    | @unshown earlier later rule given _ markup hsplit hmatch hearlier hlog hshown hpath =>
      refine ⟨earlier, rule, later, given, after, hsplit, hmatch, hearlier, ?_⟩
      rw [transform_singleton_of_match hmatch, Attempt.start_bind,
        start_log_eq_error_iff.2 ⟨markup, hlog, hshown, hpath, rfl, rfl⟩, Attempt.andThen_error]

/-- A transform that refuses every text, and what it raises. -/
def refusal : Raised := ⟨"ValueError", "refused", "refused"⟩

@[inherit_doc refusal]
def refusingRule : Rule (Transform Unit) where
  test := "py"
  pattern := ⟨{}, [.literal 112 false, .literal 121 false]⟩
  use := [.ofResult "refuse" fun _ => .error refusal]

def debugWorld : World Unit where
  tree := ⟨.root, []⟩
  console := (Console.start []).setLevel Level.debug.number
  registry := {}
  memory := ()

end Pipeline
end Bundler
