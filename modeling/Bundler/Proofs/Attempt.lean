import Bundler.Attempt
import Mathlib.Data.List.Forall2

/-!
# Running attempts

How an attempt runs, one equation for each way to build one. Everything else about attempts is read
off these equations: a program written with `do` is opened by `start_bind` and closed by the laws of
its parts.
-/

namespace Bundler

theorem bind_eq_ok_iff {ε α β : Type} {first : Except ε α} {next : α → Except ε β} {result : β} :
    first >>= next = .ok result ↔ ∃ value, first = .ok value ∧ next value = .ok result := by
  cases first with
  | error fault => exact ⟨fun h => (nomatch h), fun ⟨_, h, _⟩ => (nomatch h)⟩
  | ok value => exact ⟨fun h => ⟨value, rfl, h⟩, fun ⟨_, h, hnext⟩ => Except.ok.inj h ▸ hnext⟩

theorem bind_eq_error_iff {ε α β : Type} {first : Except ε α} {next : α → Except ε β} {fault : ε} :
    first >>= next = .error fault
      ↔ first = .error fault ∨ ∃ value, first = .ok value ∧ next value = .error fault := by
  cases first with
  | error other => simp [bind, Except.bind]
  | ok value => simp [bind, Except.bind]

/-- A check that cannot fail makes no difference to the one before it. -/
theorem bind_eq_error_iff_of_ok {ε α β : Type} {first : Except ε α} {next : α → Except ε β} {fault : ε}
    (hnext : ∀ value, ∃ result, next value = .ok result) :
    first >>= next = .error fault ↔ first = .error fault := by
  rw [bind_eq_error_iff, or_iff_left]
  rintro ⟨value, -, hfault⟩
  obtain ⟨result, hresult⟩ := hnext value
  cases hresult.symm.trans hfault

theorem ok_of_toOption {ε α : Type} {result : Except ε α} {value : α} (h : result.toOption = some value) :
    result = .ok value := by
  cases result <;> simp_all [Except.toOption]

theorem mapM_eq_ok_iff {ε α β : Type} {f : α → Except ε β} {values : List α} {results : List β} :
    values.mapM f = .ok results
      ↔ List.Forall₂ (fun value result => f value = .ok result) values results := by
  induction values generalizing results with
  | nil => simp [List.mapM_nil, pure, Except.pure, eq_comm]
  | cons value rest ih =>
    rw [List.mapM_cons, List.forall₂_cons_left_iff]
    simp only [bind, Except.bind, pure, Except.pure, ← ih]
    cases hvalue : f value with
    | error fault => simp
    | ok result =>
      cases hrest : rest.mapM f with
      | error fault => simp
      | ok others => simp [eq_comm]

/-- Where every check succeeds, the sequence gives what each of them does. -/
theorem mapM_eq_map {ε α β : Type} {f : α → Except ε β} {g : α → β} {values : List α}
    (h : ∀ value ∈ values, f value = .ok (g value)) : values.mapM f = .ok (values.map g) := by
  rw [mapM_eq_ok_iff, List.forall₂_map_right_iff, List.forall₂_same]
  exact h

theorem mapM_eq_error_iff {ε α β : Type} {f : α → Except ε β} {values : List α} {fault : ε}
    (hf : ∀ value other, f value = .error other → other = fault) {result : ε} :
    values.mapM f = .error result ↔ result = fault ∧ ∃ value ∈ values, f value = .error fault := by
  induction values with
  | nil => simp [List.mapM_nil, pure, Except.pure]
  | cons value rest ih =>
    rw [List.mapM_cons]
    simp only [bind, Except.bind, pure, Except.pure, List.exists_mem_cons_iff]
    cases hvalue : f value with
    | error other =>
      obtain rfl := hf value other hvalue
      simp [eq_comm]
    | ok first =>
      cases hrest : rest.mapM f with
      | error other =>
        rw [hrest] at ih
        simpa using ih
      | ok others =>
        rw [hrest] at ih
        simpa using ih

/-- The first of a sequence of checks that fails is what the sequence fails with. -/
theorem mapM_eq_first_error_iff {ε α β : Type} {f : α → Except ε β} {values : List α} {fault : ε} :
    values.mapM f = .error fault ↔ ∃ earlier value later, values = earlier ++ value :: later ∧
      (∀ other ∈ earlier, ∃ result, f other = .ok result) ∧ f value = .error fault := by
  induction values with
  | nil => simp [List.mapM_nil, pure, Except.pure]
  | cons first rest ih =>
    have hcons : ∀ result, (rest.mapM f >>= fun others => pure (result :: others)) = .error fault
        ↔ rest.mapM f = .error fault :=
      fun result => bind_eq_error_iff_of_ok fun others => ⟨result :: others, rfl⟩
    simp only [List.mapM_cons, bind_eq_error_iff, hcons, ih]
    constructor
    · rintro (hfirst | ⟨result, hfirst, earlier, value, later, rfl, hearlier, hvalue⟩)
      · exact ⟨[], first, rest, rfl, by simp, hfirst⟩
      · exact ⟨first :: earlier, value, later, rfl,
          List.forall_mem_cons.2 ⟨⟨result, hfirst⟩, hearlier⟩, hvalue⟩
    · rintro ⟨earlier, value, later, hsplit, hearlier, hvalue⟩
      cases earlier with
      | nil =>
        obtain ⟨rfl, rfl⟩ := List.cons.inj hsplit
        exact .inl hvalue
      | cons other earlier =>
        obtain ⟨rfl, rfl⟩ := List.cons.inj hsplit
        obtain ⟨⟨result, hfirst⟩, hearlier⟩ := List.forall_mem_cons.1 hearlier
        exact .inr ⟨result, hfirst, earlier, value, later, rfl, hearlier, hvalue⟩

theorem mapError_eq_error_iff {ε φ α : Type} {result : Except ε α} {f : ε → φ} {fault : φ} :
    result.mapError f = .error fault ↔ ∃ other, result = .error other ∧ fault = f other := by
  cases result <;> simp [Except.mapError, eq_comm]

theorem mapError_eq_ok_iff {ε φ α : Type} {result : Except ε α} {f : ε → φ} {value : α} :
    result.mapError f = .ok value ↔ result = .ok value := by
  cases result <;> simp [Except.mapError]

theorem exists_of_forall₂ {α β : Type} {R : α → β → Prop} {lefts : List α} {rights : List β}
    (h : List.Forall₂ R lefts rights) {right : β} (hmem : right ∈ rights) :
    ∃ left ∈ lefts, R left right := by
  induction h with
  | nil => cases hmem
  | cons hfirst _ ih =>
    rcases List.mem_cons.1 hmem with rfl | hmem
    · exact ⟨_, List.mem_cons_self, hfirst⟩
    · obtain ⟨left, hleft, hR⟩ := ih hmem
      exact ⟨left, List.mem_cons_of_mem _ hleft, hR⟩

namespace Attempt

variable {σ τ ε φ α β : Type}

theorem ext {attempt other : Attempt σ ε α} (h : ∀ state, attempt.start state = other.start state) :
    attempt = other :=
  funext h

/-- What an attempt gives when it goes on after another one ended in this way. -/
def andThen (next : α → Attempt σ ε β) : Except ε α × σ → Except ε β × σ
  | (.ok value, state) => (next value).start state
  | (.error fault, state) => (.error fault, state)

@[simp] theorem andThen_ok (next : α → Attempt σ ε β) (value : α) (state : σ) :
    andThen next (.ok value, state) = (next value).start state := rfl

@[simp] theorem andThen_error (next : α → Attempt σ ε β) (fault : ε) (state : σ) :
    andThen next (.error fault, state) = (.error fault, state) := rfl

@[simp] theorem start_pure (value : α) (state : σ) :
    (pure value : Attempt σ ε α).start state = (.ok value, state) := rfl

@[simp] theorem start_throw (fault : ε) (state : σ) :
    (throw fault : Attempt σ ε α).start state = (.error fault, state) := rfl

@[simp] theorem andThen_pure (value : β) (answer : Except ε α × σ) :
    andThen (fun _ => pure value) answer = (answer.1.map fun _ => value, answer.2) := by
  rcases answer with ⟨_ | _, state⟩
  · rfl
  · rfl

theorem start_bind (attempt : Attempt σ ε α) (next : α → Attempt σ ε β) (state : σ) :
    (attempt >>= next).start state = andThen next (attempt.start state) := by
  change ExceptT.bindCont next (attempt state).1 (attempt state).2 = _
  rcases h : attempt state with ⟨_ | value, after⟩
  · simp only [start, h, andThen]
    rfl
  · simp only [start, h, andThen]
    rfl

theorem start_bind_eq_ok_iff {attempt : Attempt σ ε α} {next : α → Attempt σ ε β} {state after : σ}
    {result : β} : (attempt >>= next).start state = (.ok result, after)
      ↔ ∃ value between, attempt.start state = (.ok value, between) ∧
        (next value).start between = (.ok result, after) := by
  rw [start_bind]
  rcases attempt.start state with ⟨fault | value, between⟩
  · simp
  · simp

theorem start_bind_eq_error_iff {attempt : Attempt σ ε α} {next : α → Attempt σ ε β} {state after : σ}
    {fault : ε} : (attempt >>= next).start state = (.error fault, after)
      ↔ attempt.start state = (.error fault, after) ∨
        ∃ value between, attempt.start state = (.ok value, between) ∧
          (next value).start between = (.error fault, after) := by
  rw [start_bind]
  rcases attempt.start state with ⟨other | value, between⟩
  · simp
  · simp

theorem start_bind_fst_eq_error_iff {attempt : Attempt σ ε α} {next : α → Attempt σ ε β} {state : σ}
    {fault : ε} : ((attempt >>= next).start state).1 = .error fault ↔
      (attempt.start state).1 = .error fault ∨ ∃ value between, attempt.start state = (.ok value, between) ∧
        ((next value).start between).1 = .error fault := by
  rw [start_bind]
  rcases attempt.start state with ⟨other | value, between⟩
  · simp
  · simp

@[simp] theorem start_look (f : σ → Except ε α) (state : σ) : (look f).start state = (f state, state) := rfl

@[simp] theorem start_ofExcept (result : Except ε α) (state : σ) :
    (ofExcept result).start state = (result, state) := rfl

@[simp] theorem start_update (f : σ → σ) (state : σ) :
    (update f : Attempt σ ε Unit).start state = (.ok (), f state) := rfl

@[simp] theorem start_within (get : τ → σ) (set : σ → τ → τ) (attempt : Attempt σ ε α) (whole : τ) :
    (within get set attempt).start whole
      = ((attempt.start (get whole)).1, set (attempt.start (get whole)).2 whole) := rfl

@[simp] theorem start_mapFault (f : ε → φ) (attempt : Attempt σ ε α) (state : σ) :
    (mapFault f attempt).start state
      = ((attempt.start state).1.mapError f, (attempt.start state).2) := rfl

@[simp] theorem start_ensuring (attempt : Attempt σ ε α) (f : σ → σ) (state : σ) :
    (attempt.ensuring f).start state = ((attempt.start state).1, f (attempt.start state).2) := rfl

@[simp] theorem start_forM_nil (f : α → Attempt σ ε Unit) (state : σ) :
    (([] : List α).forM f).start state = (.ok (), state) := rfl

theorem start_forM_cons (f : α → Attempt σ ε Unit) (first : α) (rest : List α) (state : σ) :
    ((first :: rest).forM f).start state
      = andThen (fun _ => rest.forM f) ((f first).start state) :=
  start_bind (f first) (fun _ => rest.forM f) state

theorem start_forM_cons_eq_ok_iff {f : α → Attempt σ ε Unit} {first : α} {rest : List α} {state after : σ} :
    ((first :: rest).forM f).start state = (.ok (), after) ↔
      ∃ between, (f first).start state = (.ok (), between) ∧
        (rest.forM f).start between = (.ok (), after) := by
  rw [start_forM_cons]
  rcases (f first).start state with ⟨fault | ⟨⟩, between⟩
  · simp
  · simp

theorem start_forM_fst_eq_error_iff {f : α → Attempt σ ε Unit} {values : List α} {state : σ} {fault : ε} :
    ((values.forM f).start state).1 = .error fault ↔ ∃ earlier value later between,
      values = earlier ++ value :: later ∧ (earlier.forM f).start state = (.ok (), between) ∧
      ((f value).start between).1 = .error fault := by
  induction values generalizing state with
  | nil => simp
  | cons first rest ih =>
    have hcons : (first :: rest).forM f = f first >>= fun _ => rest.forM f := rfl
    rw [hcons, start_bind_fst_eq_error_iff]
    constructor
    · rintro (hfirst | ⟨⟨⟩, between, hfirst, hrest⟩)
      · exact ⟨[], first, rest, state, rfl, rfl, hfirst⟩
      · obtain ⟨earlier, value, later, reached, rfl, hearlier, hvalue⟩ := ih.1 hrest
        exact ⟨first :: earlier, value, later, reached, rfl,
          start_forM_cons_eq_ok_iff.2 ⟨between, hfirst, hearlier⟩, hvalue⟩
    · rintro ⟨earlier, value, later, reached, hsplit, hearlier, hvalue⟩
      cases earlier with
      | nil =>
        obtain ⟨rfl, rfl⟩ := List.cons.inj hsplit
        cases hearlier
        exact .inl hvalue
      | cons other earlier =>
        obtain ⟨rfl, rfl⟩ := List.cons.inj hsplit
        obtain ⟨between, hfirst, hearlier⟩ := start_forM_cons_eq_ok_iff.1 hearlier
        exact .inr ⟨(), between, hfirst, ih.2 ⟨earlier, value, later, reached, rfl, hearlier, hvalue⟩⟩

theorem start_discard (attempt : Attempt σ ε α) (state : σ) :
    (discard attempt : Attempt σ ε Unit).start state
      = ((attempt.start state).1.map fun _ => (), (attempt.start state).2) := by
  have h : (discard attempt : Attempt σ ε Unit) = attempt >>= fun _ => pure () := by
    rw [bind_pure_comp]
    rfl
  rw [h, start_bind]
  rcases attempt.start state with ⟨_ | value, after⟩
  · rfl
  · rfl

/-- What every attempt of a sequence keeps true holds when all of them succeeded, and the results are
what each of them gives. -/
theorem of_start_mapM {holds : σ → Prop} {R : α → β → Prop} {f : α → Attempt σ ε β} {values : List α}
    (hstep : ∀ value ∈ values, ∀ state result after, holds state →
      (f value).start state = (.ok result, after) → holds after ∧ R value result)
    {state after : σ} {results : List β} (hstate : holds state)
    (h : (values.mapM f).start state = (.ok results, after)) :
    holds after ∧ List.Forall₂ R values results := by
  induction values generalizing state results with
  | nil =>
    rw [List.mapM_nil] at h
    cases h
    exact ⟨hstate, .nil⟩
  | cons value rest ih =>
    rw [List.forall_mem_cons] at hstep
    rw [List.mapM_cons] at h
    obtain ⟨result, between, hfirst, h⟩ := start_bind_eq_ok_iff.1 h
    obtain ⟨others, last, hrest, h⟩ := start_bind_eq_ok_iff.1 h
    cases h
    obtain ⟨hbetween, hresult⟩ := hstep.1 _ _ _ hstate hfirst
    obtain ⟨hlast, hothers⟩ := ih hstep.2 hbetween hrest
    exact ⟨hlast, .cons hresult hothers⟩

/-- A sequence of attempts that each give what a check gives, whatever was done before. -/
theorem start_mapM_eq {holds : σ → Prop} {f : α → Attempt σ ε β} {check : α → Except ε β}
    (hf : ∀ value state, holds state →
      ((f value).start state).1 = check value ∧ holds ((f value).start state).2)
    (values : List α) {state : σ} (hstate : holds state) :
    ((values.mapM f).start state).1 = values.mapM check ∧ holds ((values.mapM f).start state).2 := by
  induction values generalizing state with
  | nil => exact ⟨rfl, hstate⟩
  | cons value rest ih =>
    obtain ⟨hcheck, hbetween⟩ := hf value state hstate
    rw [List.mapM_cons, List.mapM_cons, start_bind, ← hcheck]
    generalize (f value).start state = ended at hbetween ⊢
    rcases ended with ⟨fault | result, between⟩
    · exact ⟨rfl, hbetween⟩
    obtain ⟨hrest, hafter⟩ := ih hbetween
    rw [andThen_ok, start_bind, ← hrest]
    generalize (rest.mapM f).start between = ended at hafter ⊢
    rcases ended with ⟨fault | others, after⟩
    · exact ⟨rfl, hafter⟩
    · exact ⟨rfl, hafter⟩

/-! ### Attempts on a part of a state -/

/-- On a part of the state, one attempt does what the other does. -/
def Projects (part : τ → σ) (whole : Attempt τ ε α) (attempt : Attempt σ ε α) : Prop :=
  ∀ state, ((whole.start state).1, part (whole.start state).2) = attempt.start (part state)

section Projects

variable {part : τ → σ} {whole : Attempt τ ε α} {attempt : Attempt σ ε α}

theorem projects_pure (value : α) :
    Projects part (pure value : Attempt τ ε α) (pure value) :=
  fun _ => rfl

theorem projects_throw (fault : ε) : Projects part (throw fault : Attempt τ ε α) (throw fault) :=
  fun _ => rfl

theorem Projects.bind (h : Projects part whole attempt) {next : α → Attempt τ ε β}
    {next' : α → Attempt σ ε β} (hnext : ∀ value, Projects part (next value) (next' value)) :
    Projects part (whole >>= next) (attempt >>= next') := by
  intro state
  rw [start_bind, start_bind, ← h state]
  rcases whole.start state with ⟨_ | value, after⟩
  · rfl
  · exact hnext value after

theorem Projects.discard (h : Projects part whole attempt) :
    Projects part (discard whole) (discard attempt) := by
  intro state
  rw [start_discard, start_discard, ← h state]

theorem Projects.ensuring (h : Projects part whole attempt) {f : τ → τ} {f' : σ → σ}
    (hf : ∀ state, part (f state) = f' (part state)) :
    Projects part (whole.ensuring f) (attempt.ensuring f') := by
  intro state
  rw [start_ensuring, start_ensuring, ← h state, hf]

theorem projects_forM {f : α → Attempt τ ε Unit} {f' : α → Attempt σ ε Unit}
    (hf : ∀ value, Projects part (f value) (f' value)) (values : List α) :
    Projects part (values.forM f) (values.forM f') := by
  induction values with
  | nil => exact projects_pure ()
  | cons value rest ih => exact (hf value).bind fun _ => ih

end Projects

end Attempt
end Bundler
