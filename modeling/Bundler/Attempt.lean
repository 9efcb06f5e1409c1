/-!
# Attempts

An attempt changes a state and may fail. What it changed before it failed stays changed.
-/

namespace Bundler

/-- An action on a state that may fail. -/
abbrev Attempt (σ ε α : Type) := ExceptT ε (StateM σ) α

namespace Attempt

variable {σ τ ε φ α : Type}

/-- Starts an attempt in a state: what became of it, and the state it left. -/
def start (attempt : Attempt σ ε α) (state : σ) : Except ε α × σ := attempt state

/-- An attempt that only looks at the state. -/
def look (f : σ → Except ε α) : Attempt σ ε α := fun state => (f state, state)

/-- An attempt that leaves the state alone. -/
def ofExcept (result : Except ε α) : Attempt σ ε α := fun state => (result, state)

/-- Changes the state. -/
def update (f : σ → σ) : Attempt σ ε Unit := fun state => (.ok (), f state)

/-- An attempt on a part of a state, as an attempt on the whole. -/
def within (get : τ → σ) (set : σ → τ → τ) (attempt : Attempt σ ε α) : Attempt τ ε α := fun whole =>
  let (result, part) := attempt (get whole)
  (result, set part whole)

def mapFault (f : ε → φ) (attempt : Attempt σ ε α) : Attempt σ φ α := fun state =>
  let (result, state) := attempt state
  (result.mapError f, state)

/-- Changes the state after an attempt, whether it failed or not. -/
def ensuring (attempt : Attempt σ ε α) (f : σ → σ) : Attempt σ ε α := fun state =>
  let (result, state) := attempt state
  (result, f state)

end Attempt
end Bundler
