import Bundler.Proofs.Graph.Exploration
import Bundler.Proofs.Processing

/-!
# What building reads of a world

Worlds agree when they have the same files, memories that the transforms do not tell apart and consoles
that show the same messages. Building gives the same in worlds that agree, and leaves worlds that agree
(`respects_build`): what a console has shown so far and which transforms are registered by name makes no
difference. Where one of two consoles shows messages that the other drops, building still gives the
same, unless it falters over one of these messages (`echoes_build`).
-/

namespace Bundler

variable {σ ε φ α β ω : Type}

/-- The attempt gives the same in states that agree, and leaves states that agree. -/
def Attempt.Respects (agree : σ → σ → Prop) (attempt : Attempt σ ε α) : Prop :=
  ∀ state other, agree state other →
    (attempt.start state).1 = (attempt.start other).1
      ∧ agree (attempt.start state).2 (attempt.start other).2

/-- The attempt gives the same in states that agree and leaves states that agree, or it falters in the
first of them. -/
def Attempt.Echoes (agree : σ → σ → Prop) (falters : ε → Prop) (attempt : Attempt σ ε α) : Prop :=
  ∀ state other, agree state other →
    (attempt.start state).1 = (attempt.start other).1
        ∧ agree (attempt.start state).2 (attempt.start other).2
      ∨ ∃ fault, (attempt.start state).1 = .error fault ∧ falters fault

/-- What the attempt gives in the first of two states that agree it gives in the second one too, and it
leaves states that agree then. -/
def Attempt.Repeats (agree : σ → σ → Prop) (attempt : Attempt σ ε α) : Prop :=
  ∀ state other value after, agree state other → attempt.start state = (.ok value, after) →
    ∃ after', attempt.start other = (.ok value, after') ∧ agree after after'

/-- The attempt leaves a state that agrees with the one it began in. -/
def Attempt.Keeps (agree : σ → σ → Prop) (attempt : Attempt σ ε α) : Prop :=
  ∀ state, agree state (attempt.start state).2

namespace Attempt

variable {agree : σ → σ → Prop} {falters falters' : ε → Prop} {attempt : Attempt σ ε α}

theorem Respects.echoes (hattempt : attempt.Respects agree) : attempt.Echoes agree falters :=
  fun state other h => .inl (hattempt state other h)

theorem respects_of_echoes (hattempt : attempt.Echoes agree fun _ => False) :
    attempt.Respects agree := by
  intro state other h
  rcases hattempt state other h with hsame | ⟨fault, -, hfalse⟩
  · exact hsame
  · exact hfalse.elim

theorem Echoes.mono (hattempt : attempt.Echoes agree falters)
    (h : ∀ fault, falters fault → falters' fault) : attempt.Echoes agree falters' := by
  intro state other hagree
  refine (hattempt state other hagree).imp_right ?_
  rintro ⟨fault, hresult, hfalters⟩
  exact ⟨fault, hresult, h fault hfalters⟩

theorem Echoes.bind (hattempt : attempt.Echoes agree falters) {next : α → Attempt σ ε β}
    (hnext : ∀ value, (next value).Echoes agree falters) : (attempt >>= next).Echoes agree falters := by
  intro state other h
  have hfirst := hattempt state other h
  rw [start_bind, start_bind]
  generalize attempt.start state = ended at hfirst ⊢
  generalize attempt.start other = ended' at hfirst ⊢
  obtain ⟨result, after⟩ := ended
  obtain ⟨result', after'⟩ := ended'
  rcases hfirst with ⟨hresult, hagree⟩ | ⟨fault, hfault, hfalters⟩
  · obtain rfl : result = result' := hresult
    cases result with
    | error fault => exact .inl ⟨rfl, hagree⟩
    | ok value => exact hnext value after after' hagree
  · obtain rfl : result = .error fault := hfault
    exact .inr ⟨fault, rfl, hfalters⟩

theorem Echoes.ensuring (hattempt : attempt.Echoes agree falters) {f : σ → σ}
    (hf : ∀ state other, agree state other → agree (f state) (f other)) :
    (attempt.ensuring f).Echoes agree falters := by
  intro state other h
  refine (hattempt state other h).imp_left ?_
  rintro ⟨hresult, hagree⟩
  exact ⟨hresult, hf _ _ hagree⟩

theorem respects_ofExcept (result : Except ε α) : (ofExcept result).Respects agree :=
  fun _ _ h => ⟨rfl, h⟩

theorem respects_pure (value : α) : (pure value : Attempt σ ε α).Respects agree :=
  fun _ _ h => ⟨rfl, h⟩

theorem respects_eq (attempt : Attempt σ ε α) : attempt.Respects (· = ·) := by
  rintro state _ rfl
  exact ⟨rfl, rfl⟩

theorem respects_throw (fault : ε) : (throw fault : Attempt σ ε α).Respects agree :=
  fun _ _ h => ⟨rfl, h⟩

theorem Respects.bind (hattempt : attempt.Respects agree) {next : α → Attempt σ ε β}
    (hnext : ∀ value, (next value).Respects agree) : (attempt >>= next).Respects agree :=
  respects_of_echoes (hattempt.echoes.bind fun value => (hnext value).echoes)

theorem Respects.mapFault (hattempt : attempt.Respects agree) (f : ε → φ) :
    (attempt.mapFault f).Respects agree := by
  intro state other h
  obtain ⟨hresult, hagree⟩ := hattempt state other h
  simp only [start_mapFault, hresult, true_and]
  exact hagree

theorem echoes_forM {f : α → Attempt σ ε Unit} (hf : ∀ value, (f value).Echoes agree falters)
    (values : List α) : (values.forM f).Echoes agree falters := by
  induction values with
  | nil => exact (respects_pure ()).echoes
  | cons value rest ih => exact (hf value).bind fun _ => ih

theorem Echoes.discard (hattempt : attempt.Echoes agree falters) :
    (discard attempt : Attempt σ ε Unit).Echoes agree falters := by
  intro state other h
  rw [start_discard, start_discard]
  rcases hattempt state other h with ⟨hresult, hagree⟩ | ⟨fault, hfault, hfalters⟩
  · exact .inl ⟨by rw [hresult], hagree⟩
  · exact .inr ⟨fault, by rw [hfault]; rfl, hfalters⟩

theorem Respects.repeats (hattempt : attempt.Respects agree) : attempt.Repeats agree := by
  intro state other value after h hstart
  obtain ⟨hresult, hagree⟩ := hattempt state other h
  rw [hstart] at hresult hagree
  exact ⟨(attempt.start other).2, Prod.ext hresult.symm rfl, hagree⟩

theorem Repeats.bind (hattempt : attempt.Repeats agree) {next : α → Attempt σ ε β}
    (hnext : ∀ value, (next value).Repeats agree) : (attempt >>= next).Repeats agree := by
  intro state other result after h hstart
  obtain ⟨value, between, hfirst, hrest⟩ := start_bind_eq_ok_iff.1 hstart
  obtain ⟨between', hfirst', hagree⟩ := hattempt state other value between h hfirst
  obtain ⟨after', hrest', hafter⟩ := hnext value between between' result after hagree hrest
  exact ⟨after', start_bind_eq_ok_iff.2 ⟨value, between', hfirst', hrest'⟩, hafter⟩

theorem Keeps.bind [IsTrans σ agree] (hattempt : attempt.Keeps agree) {next : α → Attempt σ ε β}
    (hnext : ∀ value, (next value).Keeps agree) : (attempt >>= next).Keeps agree := by
  intro state
  have hfirst := hattempt state
  rw [start_bind]
  rcases hstart : attempt.start state with ⟨_ | value, after⟩
  · rw [hstart] at hfirst
    exact hfirst
  · rw [hstart] at hfirst
    exact Trans.trans hfirst (hnext value after)

theorem Keeps.of_start (hattempt : attempt.Keeps agree) {state after : σ} {result : Except ε α}
    (h : attempt.start state = (result, after)) : agree state after := by
  have hkeeps := hattempt state
  rwa [h] at hkeeps

theorem keeps_pure [Std.Refl agree] (value : α) : (pure value : Attempt σ ε α).Keeps agree :=
  fun state => Std.Refl.refl state

theorem Keeps.mono (hattempt : attempt.Keeps agree) {agree' : σ → σ → Prop}
    (h : ∀ state later, agree state later → agree' state later) : attempt.Keeps agree' :=
  fun state => h _ _ (hattempt state)

theorem keeps_look [Std.Refl agree] (f : σ → Except ε α) : (look f).Keeps agree :=
  fun state => Std.Refl.refl state

theorem keeps_ofExcept [Std.Refl agree] (result : Except ε α) : (ofExcept result).Keeps agree :=
  fun state => Std.Refl.refl state

theorem keeps_throw [Std.Refl agree] (fault : ε) : (throw fault : Attempt σ ε α).Keeps agree :=
  fun state => Std.Refl.refl state

theorem keeps_forM [Std.Refl agree] [IsTrans σ agree] {f : α → Attempt σ ε Unit} {values : List α}
    (hf : ∀ value ∈ values, (f value).Keeps agree) : (values.forM f).Keeps agree := by
  induction values with
  | nil => exact keeps_pure ()
  | cons value rest ih =>
    rw [List.forall_mem_cons] at hf
    exact hf.1.bind fun _ => ih hf.2

end Attempt

/-! ### Worlds -/

/-- Two worlds have the same files, memories that are alike in some sense and consoles that take the
same messages. -/
structure World.Agrees (like : ω → ω → Prop) (world other : World ω) : Prop where
  tree : world.tree = other.tree
  memory : like world.memory other.memory
  threshold : world.console.threshold = other.console.threshold
  handlers : world.console.handlers = other.console.handlers
  words : world.console.words = other.console.words

namespace World

variable {like : ω → ω → Prop}

instance [Std.Refl like] : Std.Refl (World.Agrees like) :=
  ⟨fun _ => ⟨rfl, Std.Refl.refl _, rfl, rfl, rfl⟩⟩

instance [IsTrans ω like] : IsTrans (World ω) (World.Agrees like) :=
  ⟨fun _ _ _ h h' => ⟨h.tree.trans h'.tree, Trans.trans h.memory h'.memory,
    h.threshold.trans h'.threshold, h.handlers.trans h'.handlers, h.words.trans h'.words⟩⟩

/-- Whether a message can be shown depends on it and on what its names mean; showing it only adds lines. -/
theorem deliver_eq (level : Level) (message : String) (handlers : List Handler)
    (words : Console.Vocabulary) :
    (∃ fault, ∀ console : Console, console.words = words →
        console.deliver level message handlers = .error fault) ∨
      ∀ console : Console, console.words = words → ∃ lines, console.deliver level message handlers
        = .ok { console with output := console.output ++ lines } := by
  induction handlers with
  | nil => exact .inr fun console _ => ⟨[], by simp [Console.deliver]⟩
  | cons handler rest ih =>
    cases handler with
    | foreign number => simpa only [Console.deliver] using ih
    | own backend =>
      cases hshown : Console.shown words (level.sign ++ message) with
      | error fault =>
        refine .inl ⟨fault, ?_⟩
        rintro console rfl
        simp [Console.deliver, Console.logLines, hshown, bind, Except.bind]
      | ok text =>
        have hlines : ∀ console : Console, console.words = words →
            ∃ lines, console.logLines level message = .ok lines := by
          rintro console rfl
          exact ⟨_, by rw [Console.logLines, hshown]; rfl⟩
        rcases ih with ⟨fault, hfault⟩ | hrest
        · refine .inl ⟨fault, fun console hwords => ?_⟩
          obtain ⟨texts, htexts⟩ := hlines console hwords
          rw [Console.deliver, htexts]
          exact hfault (console.write backend texts) hwords
        · refine .inr fun console hwords => ?_
          obtain ⟨texts, htexts⟩ := hlines console hwords
          obtain ⟨lines, hrest⟩ := hrest (console.write backend texts) hwords
          refine ⟨texts.map (⟨backend, ·⟩) ++ lines, ?_⟩
          rw [Console.deliver, htexts, ← List.append_assoc]
          exact hrest

/-- The world with other lines on the console. -/
def showing (world : World ω) (output : List ShownLine) : World ω :=
  { world with console := { world.console with output } }

/-- Whether a message can be logged depends on the settings of the console; logging it only adds lines. -/
theorem start_log_cases (level : Level) (message : String) (console : Console) :
    (∃ fault, ∀ world : World ω, world.console.threshold = console.threshold →
        world.console.handlers = console.handlers → world.console.words = console.words →
        (World.log level message).start world = (.error (.markup fault), world)) ∨
      ∀ world : World ω, world.console.threshold = console.threshold →
        world.console.handlers = console.handlers → world.console.words = console.words →
        ∃ output, (World.log level message).start world = (.ok (), world.showing output) := by
  have hreceivers : ∀ world : World ω, world.console.threshold = console.threshold →
      world.console.handlers = console.handlers →
      world.console.receivers level.number = console.receivers level.number := by
    intro world hthreshold hhandlers
    rw [Console.receivers, Console.receivers, hthreshold, hhandlers]
  rcases deliver_eq level message (console.receivers level.number) console.words with
    ⟨fault, hfault⟩ | hlines
  · refine .inl ⟨fault, fun world hthreshold hhandlers hwords => ?_⟩
    simp only [Attempt.start, World.log, Console.log, hreceivers world hthreshold hhandlers,
      hfault world.console hwords]
  · refine .inr fun world hthreshold hhandlers hwords => ?_
    obtain ⟨lines, hlines⟩ := hlines world.console hwords
    refine ⟨world.console.output ++ lines, ?_⟩
    simp only [Attempt.start, World.log, Console.log, hreceivers world hthreshold hhandlers, hlines]
    rfl

theorem respects_log (level : Level) (message : String) :
    (World.log level message : Act ω Unit).Respects (World.Agrees like) := by
  intro state other h
  rcases start_log_cases level message other.console with ⟨fault, hfault⟩ | hshows
  · rw [hfault state h.threshold h.handlers h.words, hfault other rfl rfl rfl]
    exact ⟨rfl, h⟩
  · obtain ⟨output, hstate⟩ := hshows state h.threshold h.handlers h.words
    obtain ⟨output', hother⟩ := hshows other rfl rfl rfl
    rw [hstate, hother]
    exact ⟨rfl, h.tree, h.memory, h.threshold, h.handlers, h.words⟩

theorem respects_withMemory {attempt : Attempt ω ε α} (hattempt : attempt.Respects like) :
    (World.withMemory attempt).Respects (World.Agrees like) := by
  intro state other h
  obtain ⟨hresult, hmemory⟩ := hattempt state.memory other.memory h.memory
  exact ⟨hresult, h.tree, hmemory, h.threshold, h.handlers, h.words⟩

/-- Nothing of the world changed but the lines on the console. -/
def Tells (world later : World ω) : Prop := ∃ output, later = world.showing output

instance : Std.Refl (Tells (ω := ω)) := ⟨fun world => ⟨world.console.output, rfl⟩⟩

instance : IsTrans (World ω) Tells := by
  refine ⟨?_⟩
  rintro world _ _ ⟨output, rfl⟩ ⟨output', rfl⟩
  exact ⟨output', rfl⟩

theorem tells_log (level : Level) (message : String) :
    (World.log level message : Act ω Unit).Keeps Tells := by
  intro world
  rcases start_log_cases level message world.console with ⟨fault, hfault⟩ | hshows
  · rw [hfault world rfl rfl rfl]
    exact Std.Refl.refl world
  · obtain ⟨output, hlogged⟩ := hshows world rfl rfl rfl
    rw [hlogged]
    exact ⟨output, rfl⟩

theorem Tells.agrees [Std.Refl like] {world later : World ω} (h : world.Tells later) :
    world.Agrees like later := by
  obtain ⟨output, rfl⟩ := h
  exact ⟨rfl, Std.Refl.refl _, rfl, rfl, rfl⟩

theorem keeps_log [Std.Refl like] (level : Level) (message : String) :
    (World.log level message : Act ω Unit).Keeps (World.Agrees like) :=
  (tells_log level message).mono fun _ _ h => h.agrees

end World

/-! ### Building -/

/-- No transform tells memories that are alike apart, and it leaves them alike. -/
def Pipeline.Respects (like : ω → ω → Prop) (pipeline : Pipeline ω) : Prop :=
  ∀ rule ∈ pipeline, ∀ transform ∈ rule.use, ∀ text, (transform.run text).Respects like

theorem respects_applyChain {like : ω → ω → Prop} {chain : List (Transform ω)}
    (hchain : ∀ transform ∈ chain, ∀ text, (transform.run text).Respects like) (text : String) :
    (applyChain chain text).Respects like := by
  induction chain with
  | nil => exact Attempt.respects_pure text
  | cons transform rest ih =>
    rw [List.forall_mem_cons] at hchain
    refine (ih hchain.2).bind fun value => (hchain.1 value).bind fun outcome => ?_
    cases outcome with
    | text result => exact Attempt.respects_pure result
    | other typeName => exact Attempt.respects_throw _

namespace Pipeline

variable {like : ω → ω → Prop} {pipeline : Pipeline ω}

theorem respects_eq (pipeline : Pipeline ω) : pipeline.Respects (· = ·) :=
  fun _ _ transform _ text => Attempt.respects_eq (transform.run text)

/-- Rules and messages of a pipeline make no difference between worlds that agree, unless a message makes
the first of them falter. -/
structure Echoes (pipeline : Pipeline ω) (agree : World ω → World ω → Prop) (falters : Failure → Prop) :
    Prop where
  tree : ∀ world other, agree world other → world.tree = other.tree
  rule : ∀ rule ∈ pipeline, ∀ path text, (applyRule path rule text).Respects agree
  applied : ∀ (rule : Rule (Transform ω)) path,
    (World.log .debug (notice rule path) : Act ω Unit).Echoes agree falters
  built : ∀ identity count,
    (World.log .debug (Processing.notice identity count) : Act ω Unit).Echoes agree falters

theorem Respects.echoes (hpipeline : pipeline.Respects like) :
    pipeline.Echoes (World.Agrees like) fun _ => False where
  tree _ _ h := h.tree
  rule rule hrule _ text :=
    (World.respects_withMemory (respects_applyChain (hpipeline rule hrule) text)).mapFault _
  applied _ _ := (World.respects_log _ _).echoes
  built _ _ := (World.respects_log _ _).echoes

section Echoes

variable {agree : World ω → World ω → Prop} {falters : Failure → Prop}

theorem Echoes.files (hpipeline : pipeline.Echoes agree falters) (f : FileTree → Except Failure α) :
    (World.files f : Act ω α).Echoes agree falters :=
  fun world other h => .inl ⟨congrArg f (hpipeline.tree world other h), h⟩

theorem echoes_transform_of {path : FilePath}
    (happlied : ∀ rule ∈ pipeline,
      (World.log .debug (notice rule path) : Act ω Unit).Echoes agree falters)
    (hrule : ∀ rule ∈ pipeline, ∀ text, (applyRule path rule text).Echoes agree falters)
    (text : String) : (pipeline.transform path text).Echoes agree falters := by
  induction pipeline generalizing text with
  | nil => exact (Attempt.respects_pure text).echoes
  | cons rule rest ih =>
    rw [List.forall_mem_cons] at happlied hrule
    rw [transform]
    split
    · exact happlied.1.bind fun _ => (hrule.1 text).bind (ih happlied.2 hrule.2)
    · exact ih happlied.2 hrule.2 text

theorem keeps_transform_of [Std.Refl agree] [IsTrans (World ω) agree] {path : FilePath}
    (hlog : ∀ message, (World.log .debug message : Act ω Unit).Keeps agree)
    (hrule : ∀ rule ∈ pipeline, ∀ text, (applyRule path rule text).Keeps agree)
    (text : String) : (pipeline.transform path text).Keeps agree := by
  induction pipeline generalizing text with
  | nil => exact Attempt.keeps_pure text
  | cons rule rest ih =>
    rw [List.forall_mem_cons] at hrule
    rw [transform]
    split
    · exact (hlog _).bind fun _ => (hrule.1 text).bind (ih hrule.2)
    · exact ih hrule.2 text

theorem echoes_transform (hpipeline : pipeline.Echoes agree falters) (path : FilePath) (text : String) :
    (pipeline.transform path text).Echoes agree falters :=
  echoes_transform_of (fun rule _ => hpipeline.applied rule path)
    (fun rule hrule text => (hpipeline.rule rule hrule path text).echoes) text

theorem echoes_load (hpipeline : pipeline.Echoes agree falters) (path : FilePath) :
    (pipeline.load path).Echoes agree falters :=
  (hpipeline.files _).bind (echoes_transform hpipeline path)

end Echoes

end Pipeline

/-- Looking at files and processing modules gives the same in states that agree. -/
structure Surroundings.Respects (around : Surroundings σ ε) (agree : σ → σ → Prop) : Prop where
  isFile : ∀ path, (around.isFile path).Respects agree
  process : ∀ path identity, (around.process path identity).Respects agree

/-- Looking at files and processing modules gives the same in states that agree, or falters in the first
of them. -/
structure Surroundings.Echoes (around : Surroundings σ ε) (agree : σ → σ → Prop) (falters : ε → Prop) :
    Prop where
  isFile : ∀ path, (around.isFile path).Echoes agree falters
  process : ∀ path identity, (around.process path identity).Echoes agree falters

namespace Build

def Agrees (agree : σ → σ → Prop) (state other : Graph × σ) : Prop :=
  state.1 = other.1 ∧ agree state.2 other.2

variable {agree : σ → σ → Prop} {falters : ε → Prop} {around : Surroundings σ ε}

theorem echoes_outside {attempt : Attempt σ ε α} (h : attempt.Echoes agree falters) :
    (outside attempt).Echoes (Agrees agree) falters := by
  rintro ⟨graph, state⟩ ⟨_, other⟩ ⟨rfl, hagree⟩
  refine (h state other hagree).imp_left ?_
  rintro ⟨hresult, hafter⟩
  exact ⟨hresult, rfl, hafter⟩

theorem respects_graph : (graph : Build σ ε Graph).Respects (Agrees agree) := by
  rintro ⟨graph, state⟩ ⟨_, other⟩ ⟨rfl, hagree⟩
  exact ⟨rfl, rfl, hagree⟩

theorem respects_change (f : Graph → Graph) : (change f : Build σ ε Unit).Respects (Agrees agree) := by
  rintro ⟨graph, state⟩ ⟨_, other⟩ ⟨rfl, hagree⟩
  exact ⟨rfl, rfl, hagree⟩

theorem respects_identityOf (path : FilePath) :
    (identityOf around path).Respects (Agrees agree) := by
  unfold identityOf
  cases Identity.ofPath? around.root path with
  | none => exact Attempt.respects_throw _
  | some identity => exact Attempt.respects_pure identity

theorem echoes_begin (haround : around.Echoes agree falters) {next : FilePath → Build σ ε Unit}
    (hnext : ∀ path, (next path).Echoes (Agrees agree) falters) (path : FilePath) (identity : Identity) :
    (begin around next path identity).Echoes (Agrees agree) falters := by
  have hexpand : (expand around next path identity).Echoes (Agrees agree) falters := by
    refine (echoes_outside (haround.process path identity)).bind fun answer => ?_
    exact (Attempt.echoes_forM (fun dependency => hnext _) answer.2).bind fun _ =>
      (Attempt.respects_pure _).echoes
  have hleave : ∀ state other : Graph × σ, Agrees agree state other →
      Agrees agree (state.1.leave, state.2) (other.1.leave, other.2) :=
    fun _ _ h => ⟨congrArg Graph.leave h.1, h.2⟩
  refine respects_graph.echoes.bind fun graph => ?_
  refine (echoes_outside (haround.isFile path)).bind fun isFile => ?_
  cases isFile with
  | false => exact (Attempt.respects_throw _).echoes
  | true =>
    refine (respects_change _).echoes.bind fun _ => ?_
    exact (hexpand.ensuring hleave).bind fun module => (respects_change _).echoes

theorem echoes_module (haround : around.Echoes agree falters) (depth : Nat) (path : FilePath) :
    (module around depth path).Echoes (Agrees agree) falters := by
  induction depth generalizing path with
  | zero => exact (Attempt.respects_throw _).echoes
  | succ depth ih =>
    refine (respects_identityOf path).echoes.bind fun identity => ?_
    refine respects_graph.echoes.bind fun graph => ?_
    cases graph.visit identity with
    | unvisited => exact echoes_begin haround ih path identity
    | inProgress => exact (Attempt.respects_throw _).echoes
    | done => exact (Attempt.respects_pure ()).echoes

theorem echoes_start (haround : around.Echoes agree falters) (depth : Nat) (entry : Option String)
    (path : FilePath) : (start around depth entry path).Echoes (Agrees agree) falters := by
  refine (respects_identityOf path).echoes.bind fun identity => ?_
  have hpure : (pure identity : Build σ ε Identity).Echoes (Agrees agree) falters :=
    (Attempt.respects_pure identity).echoes
  have hmodule := (echoes_module haround depth path).bind fun _ => hpure
  cases entry with
  | none => exact (Attempt.respects_pure ()).echoes.bind fun _ => hmodule
  | some name => exact (respects_change _).echoes.bind fun _ => hmodule

end Build

namespace Processing

variable {root : FilePath} {naming : Naming} {pipeline : Pipeline ω} {like : ω → ω → Prop}
  {agree : World ω → World ω → Prop} {falters : Failure → Prop}

theorem echoes_surroundings (hpipeline : pipeline.Echoes agree falters) :
    (surroundings root naming pipeline).Echoes agree falters where
  isFile _ := hpipeline.files _
  process path identity := by
    refine (pipeline.echoes_load hpipeline path).bind fun text => ?_
    refine (Attempt.respects_ofExcept _).echoes.bind fun answer => ?_
    exact (hpipeline.built _ _).bind fun _ => (Attempt.respects_pure _).echoes

theorem respects_surroundings (hpipeline : pipeline.Respects like) :
    (surroundings root naming pipeline).Respects (World.Agrees like) where
  isFile path := Attempt.respects_of_echoes ((echoes_surroundings hpipeline.echoes).isFile path)
  process path identity :=
    Attempt.respects_of_echoes ((echoes_surroundings hpipeline.echoes).process path identity)

/-- Building gives the same graph in worlds that agree and leaves worlds that agree, or it falters over a
message in the first of them. -/
theorem echoes_build (hpipeline : pipeline.Echoes agree falters) (entry : Option String)
    (path : FilePath) :
    Attempt.Echoes (Build.Agrees agree) falters (build root naming pipeline entry path) := by
  rintro ⟨graph, world⟩ ⟨_, other⟩ ⟨rfl, hagree⟩
  rw [start_build, start_build, hpipeline.tree world other hagree]
  exact Build.echoes_start (echoes_surroundings hpipeline) _ entry path _ _ ⟨rfl, hagree⟩

theorem respects_build (hpipeline : pipeline.Respects like) (entry : Option String) (path : FilePath) :
    (build root naming pipeline entry path).Respects (Build.Agrees (World.Agrees like)) :=
  Attempt.respects_of_echoes (echoes_build hpipeline.echoes entry path)

end Processing

end Bundler
