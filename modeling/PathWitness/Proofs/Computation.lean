import PathWitness.Resolution

/-!
# Running Computations

Computations on path conditions, path states and sessions share one shape: they
pass a state along, and a failure ends them with the state as it is at that
point. What running one does is therefore said once for sequencing and once for
each way to touch the state, and later proofs run computations by rewriting
with these equations.

## Theorems

* `run_bind`: A sequence runs its second part where the first has left off.
* `ConditionM.runOn_bind`, `PathM.runOn_bind`, `TraceM.runOn_bind`: The same for
  the three kinds of computations.
* `TraceM.runOn_onCondition`, `TraceM.runOn_ofPath`: Computations on a part of a
  session.
* `bind_eq_ok`, `andThen_eq_ok`: A sequence that succeeds has parts that do.
* `mapError_bind`: Errors are changed part by part.
* `foldlM_induction`: What the steps of a loop keep.
* `getElem?_snoc`: Reading a list that has grown at its end.
-/

namespace PathWitness

variable {ε ε' σ α β : Type}

/-- Peels one bind off a computation that may fail. -/
theorem bind_eq_ok {x : Except ε α} {f : α → Except ε β} {b : β}
    (h : (x >>= f) = .ok b) : ∃ a, x = .ok a ∧ f a = .ok b := by
  cases x with
  | error e => exact absurd h (by simp only [bind, Except.bind, reduceCtorEq, not_false_eq_true])
  | ok a => exact ⟨a, rfl, h⟩

/-- Other errors do not change a result. -/
theorem ok_of_mapError {inject : ε → ε'} {x : Except ε α} {a : α}
    (h : x.mapError inject = .ok a) : x = .ok a := by
  cases x with
  | error e => cases h
  | ok b => rw [Except.ok.inj h]

/-- The errors of a sequence are those of its parts. -/
theorem mapError_bind (inject : ε → ε') (x : Except ε α) (f : α → Except ε β) :
    (x >>= f).mapError inject = x.mapError inject >>= fun a => (f a).mapError inject := by
  cases x <;> rfl

/-- What every step keeps is kept by all of them, if none fails. -/
theorem foldlM_induction {f : β → α → Except ε β} {P : β → Prop}
    (hstep : ∀ b a b', P b → f b a = .ok b' → P b') {l : List α} {b b' : β}
    (h : l.foldlM f b = .ok b') (hb : P b) : P b' := by
  induction l generalizing b with
  | nil =>
      rw [← Except.ok.inj h]
      exact hb
  | cons a rest ih =>
      rw [List.foldlM_cons] at h
      rcases bind_eq_ok h with ⟨b₁, ha, hrest⟩
      exact ih hrest (hstep b a b₁ hb ha)

/-- Clauses, symbols and objects are kept in lists that grow at their end. -/
theorem getElem?_snoc {l : List α} {a b : α} {i : Nat} :
    (l ++ [a])[i]? = some b ↔ l[i]? = some b ∨ i = l.length ∧ a = b := by
  rcases Nat.lt_trichotomy i l.length with hlt | heq | hgt
  · rw [List.getElem?_append_left hlt]
    exact ⟨.inl, fun h => h.elim id (fun hc => absurd hc.1 (by omega))⟩
  · rw [heq, List.getElem?_concat_length, List.getElem?_eq_none (Nat.le_refl _)]
    simp only [Option.some.injEq, reduceCtorEq, true_and, false_or]
  · rw [List.getElem?_eq_none (by rw [List.length_append, List.length_singleton]; omega),
      List.getElem?_eq_none (by omega)]
    simp only [reduceCtorEq, false_or, false_iff, not_and]
    omega

/-- Goes on from where a computation has left off, unless it has failed. -/
def andThen (r : Except ε α × σ) (k : α → σ → Except ε β × σ) : Except ε β × σ :=
  match r with
  | (.ok a, s) => k a s
  | (.error e, s) => (.error e, s)

@[simp]
theorem andThen_ok (a : α) (s : σ) (k : α → σ → Except ε β × σ) : andThen (.ok a, s) k = k a s :=
  rfl

@[simp]
theorem andThen_error (e : ε) (s : σ) (k : α → σ → Except ε β × σ) :
    andThen (.error e, s) k = (.error e, s) :=
  rfl

/-- What goes on has not failed before. -/
theorem andThen_eq_ok {r : Except ε α × σ} {k : α → σ → Except ε β × σ} {b : β} {s : σ}
    (h : andThen r k = (.ok b, s)) : ∃ a s', r = (.ok a, s') ∧ k a s' = (.ok b, s) := by
  rcases r with ⟨e | a, s'⟩
  · cases h
  · exact ⟨a, s', rfl, h⟩

/-- A sequence runs its second part where the first has left off. -/
theorem run_bind (m : ExceptT ε (StateM σ) α) (f : α → ExceptT ε (StateM σ) β) (s : σ) :
    (StateT.run (ExceptT.run (m >>= f)) s : Except ε β × σ)
      = andThen (StateT.run (ExceptT.run m) s : Except ε α × σ) fun a s' =>
        (StateT.run (ExceptT.run (f a)) s' : Except ε β × σ) := by
  simp only [StateT.run, ExceptT.run, bind, ExceptT.bind, StateT.bind, ExceptT.mk]
  rcases m s with ⟨r | a, s'⟩ <;> rfl

namespace ConditionM

@[simp]
theorem runOn_bind (m : ConditionM α) (f : α → ConditionM β) (pc : PathCondition) :
    ConditionM.runOn (m >>= f) pc = andThen (m.runOn pc) fun a pc' => (f a).runOn pc' :=
  run_bind m f pc

@[simp]
theorem runOn_pure (a : α) (pc : PathCondition) :
    ConditionM.runOn (pure a) pc = (.ok a, pc) :=
  rfl

@[simp]
theorem runOn_throw (e : ConditionError) (pc : PathCondition) :
    ConditionM.runOn (throw e : ConditionM α) pc = (.error e, pc) :=
  rfl

@[simp]
theorem runOn_get (pc : PathCondition) : ConditionM.runOn get pc = (.ok pc, pc) :=
  rfl

@[simp]
theorem runOn_modify (f : PathCondition → PathCondition) (pc : PathCondition) :
    ConditionM.runOn (modify f) pc = (.ok (), f pc) :=
  rfl

end ConditionM

namespace PathM

@[simp]
theorem runOn_bind (m : PathM ε α) (f : α → PathM ε β) (s : PathState) :
    PathM.runOn (m >>= f) s = andThen (m.runOn s) fun a s' => (f a).runOn s' :=
  run_bind m f s

@[simp]
theorem runOn_pure (a : α) (s : PathState) : PathM.runOn (pure a : PathM ε α) s = (.ok a, s) :=
  rfl

@[simp]
theorem runOn_throw (e : ε) (s : PathState) :
    PathM.runOn (throw e : PathM ε α) s = (.error e, s) :=
  rfl

@[simp]
theorem runOn_get (s : PathState) : PathM.runOn (get : PathM ε PathState) s = (.ok s, s) :=
  rfl

@[simp]
theorem runOn_set (s s' : PathState) : PathM.runOn (set s' : PathM ε Unit) s = (.ok (), s') :=
  rfl

@[simp]
theorem runOn_ofExcept (inject : ε → ε') (r : Except ε α) (s : PathState) :
    (PathM.ofExcept inject r).runOn s = (r.mapError inject, s) := by
  cases r <;> rfl

end PathM

namespace TraceM

@[simp]
theorem runOn_bind (m : TraceM ε α) (f : α → TraceM ε β) (u : Session) :
    TraceM.runOn (m >>= f) u = andThen (m.runOn u) fun a u' => (f a).runOn u' :=
  run_bind m f u

@[simp]
theorem runOn_pure (a : α) (u : Session) : TraceM.runOn (pure a : TraceM ε α) u = (.ok a, u) :=
  rfl

@[simp]
theorem runOn_throw (e : ε) (u : Session) :
    TraceM.runOn (throw e : TraceM ε α) u = (.error e, u) :=
  rfl

@[simp]
theorem runOn_get (u : Session) : TraceM.runOn (get : TraceM ε Session) u = (.ok u, u) :=
  rfl

@[simp]
theorem runOn_modify (f : Session → Session) (u : Session) :
    TraceM.runOn (modify f : TraceM ε Unit) u = (.ok (), f u) :=
  rfl

@[simp]
theorem runOn_state (u : Session) :
    (TraceM.state : TraceM ε PathState).runOn u = (.ok u.state, u) :=
  rfl

@[simp]
theorem runOn_setState (s : PathState) (u : Session) :
    (TraceM.setState s : TraceM ε Unit).runOn u = (.ok (), { u with state := s }) :=
  rfl

@[simp]
theorem runOn_record (e : Event) (u : Session) :
    (TraceM.record e : TraceM ε Unit).runOn u = (.ok (), { u with journal := e :: u.journal }) :=
  rfl

@[simp]
theorem runOn_ofExcept (inject : ε → ε') (r : Except ε α) (u : Session) :
    (TraceM.ofExcept inject r).runOn u = (r.mapError inject, u) := by
  cases r <;> rfl

theorem runOn_mapError (inject : ε → ε') (m : TraceM ε α) (u : Session) :
    (m.mapError inject).runOn u = ((m.runOn u).1.mapError inject, (m.runOn u).2) := by
  simp only [runOn, mapError, ExceptT.run, ExceptT.mk, StateT.run]
  rcases m u with ⟨r | a, u'⟩ <;> rfl

theorem runOn_ofPath (inject : ε → ε') (m : PathM ε α) (u : Session) :
    (TraceM.ofPath inject m).runOn u
      = ((m.runOn u.state).1.mapError inject, { u with state := (m.runOn u.state).2 }) := by
  simp only [runOn, PathM.runOn, ofPath, ExceptT.run, ExceptT.mk, StateT.run]
  rcases m u.state with ⟨r | a, s⟩ <;> rfl

theorem runOn_onCondition (inject : ConditionError → ε) (m : ConditionM α) (u : Session) :
    (TraceM.onCondition inject m).runOn u
      = ((m.runOn u.state.condition).1.mapError inject,
        { u with state := { u.state with condition := (m.runOn u.state.condition).2 } }) := by
  simp only [runOn, ConditionM.runOn, onCondition, ExceptT.run, ExceptT.mk, StateT.run]
  rcases m u.state.condition with ⟨r | a, pc⟩ <;> rfl

end TraceM

end PathWitness
