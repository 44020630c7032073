import PathWitness.Proofs.Computation

/-!
# Relations that Computations Obey

What a computation does to a state is often said as a relation between the state
before and the state after, which holds no matter how the computation ends: that
the state stays coherent, that clauses are only added, that no rule fires twice.
If the relation holds of no change at all and composes, then a sequence obeys it
when its parts do. Everything else about a computation is said part by part.

## Main definitions

* `Composes`: A relation that sequences can obey.
* `Obeys`: A computation that starts in a state leaves a related one.

## Theorems

* `Obeys.bind`: Sequences.
* `Obeys.tryCatch`, `TraceM.obeys_mapError`: Errors that are caught, and other errors.
* `TraceM.obeys_ofPath`: Computations on the state of a session alone.
-/

namespace PathWitness

variable {σ ε ε' α β : Type} {R : σ → σ → Prop} {s : σ}

/-- A relation that holds of no change, and of one change after another. -/
structure Composes (R : σ → σ → Prop) : Prop where
  refl : ∀ s, R s s
  trans : ∀ {s t u}, R s t → R t u → R s u

/-- A computation that starts in a state leaves a related one, whether it
    succeeds or fails. -/
def Obeys (R : σ → σ → Prop) (s : σ) (m : ExceptT ε (StateM σ) α) : Prop :=
  R s (StateT.run (ExceptT.run m) s : Except ε α × σ).2

/-- An error is handled in the state as it is at that point. -/
theorem run_tryCatch (m : ExceptT ε (StateM σ) α) (handle : ε → ExceptT ε (StateM σ) α) (s : σ) :
    (StateT.run (ExceptT.run (tryCatch m handle)) s : Except ε α × σ) =
      match (StateT.run (ExceptT.run m) s : Except ε α × σ) with
      | (.ok a, s') => (.ok a, s')
      | (.error e, s') => StateT.run (ExceptT.run (handle e)) s' := by
  simp only [StateT.run, ExceptT.run, tryCatch, tryCatchThe, MonadExceptOf.tryCatch,
    ExceptT.tryCatch, ExceptT.mk, bind, StateT.bind]
  rcases m s with ⟨r | a, s'⟩ <;> rfl

namespace Obeys

/-- The second part of a sequence starts where the first has succeeded. -/
theorem bind (hR : Composes R) {m : ExceptT ε (StateM σ) α} {f : α → ExceptT ε (StateM σ) β}
    (hm : Obeys R s m)
    (hf : ∀ a s', (StateT.run (ExceptT.run m) s : Except ε α × σ) = (.ok a, s') →
      Obeys R s' (f a)) : Obeys R s (m >>= f) := by
  unfold Obeys at hm ⊢
  rw [run_bind]
  rcases hrun : (StateT.run (ExceptT.run m) s : Except ε α × σ) with ⟨e | a, s'⟩
  · rw [hrun] at hm
    exact hm
  · rw [hrun] at hm
    exact hR.trans hm (hf a s' hrun)

theorem pure (hR : Composes R) (a : α) : Obeys R s (Pure.pure a : ExceptT ε (StateM σ) α) :=
  hR.refl s

theorem throw (hR : Composes R) (e : ε) : Obeys R s (throw e : ExceptT ε (StateM σ) α) :=
  hR.refl s

/-- A result that does not touch the state. -/
theorem mk (hR : Composes R) (r : Except ε α) :
    Obeys R s (ExceptT.mk (Pure.pure r) : ExceptT ε (StateM σ) α) :=
  hR.refl s

theorem ite {c : Prop} [Decidable c] {m n : ExceptT ε (StateM σ) α} (hm : Obeys R s m)
    (hn : Obeys R s n) : Obeys R s (if c then m else n) := by
  by_cases hc : c
  · rwa [if_pos hc]
  · rwa [if_neg hc]

theorem tryCatch (hR : Composes R) {m : ExceptT ε (StateM σ) α}
    {handle : ε → ExceptT ε (StateM σ) α} (hm : Obeys R s m)
    (hhandle : ∀ e s', (StateT.run (ExceptT.run m) s : Except ε α × σ) = (.error e, s') →
      Obeys R s' (handle e)) : Obeys R s (MonadExcept.tryCatch m handle) := by
  unfold Obeys at hm ⊢
  rw [run_tryCatch]
  rcases hm' : (StateT.run (ExceptT.run m) s : Except ε α × σ) with ⟨e | a, s'⟩
  · rw [hm'] at hm
    exact hR.trans hm (hhandle e s' hm')
  · rw [hm'] at hm
    exact hm

end Obeys

namespace TraceM

variable {R : Session → Session → Prop} {u : Session}

theorem obeys_mapError {m : TraceM ε α} (h : Obeys R u m) (inject : ε → ε') :
    Obeys R u (m.mapError inject) := by
  have hrun : (m.mapError inject).runOn u = ((m.runOn u).1.mapError inject, (m.runOn u).2) :=
    runOn_mapError inject m u
  unfold runOn at hrun
  rw [Obeys, hrun]
  exact h

theorem obeys_ofExcept (hR : Composes R) (inject : ε → ε') (r : Except ε α) :
    Obeys R u (TraceM.ofExcept inject r) := by
  cases r with
  | error e => exact .throw hR _
  | ok a => exact .pure hR a

theorem obeys_state (hR : Composes R) : Obeys R u (TraceM.state : TraceM ε PathState) :=
  hR.refl u

/-- The state of the path is at hand. -/
theorem obeys_bind_state {f : PathState → TraceM ε β} (h : Obeys R u (f u.state)) :
    Obeys R u (TraceM.state >>= f) :=
  h

theorem obeys_bind_ofExcept (hR : Composes R) {inject : ε' → ε} {r : Except ε' α}
    {f : α → TraceM ε β} (h : ∀ a, r = .ok a → Obeys R u (f a)) :
    Obeys R u (TraceM.ofExcept inject r >>= f) := by
  cases r with
  | error e => exact .throw hR _
  | ok a => exact h a rfl

theorem obeys_bind_setState (hR : Composes R) {s : PathState} {f : Unit → TraceM ε β}
    (hs : R u ⟨s, u.journal⟩) (h : Obeys R ⟨s, u.journal⟩ (f ())) :
    Obeys R u (TraceM.setState s >>= f) :=
  hR.trans hs h

theorem obeys_bind_record (hR : Composes R) {e : Event} {f : Unit → TraceM ε β}
    (he : R u ⟨u.state, e :: u.journal⟩) (h : Obeys R ⟨u.state, e :: u.journal⟩ (f ())) :
    Obeys R u (TraceM.record e >>= f) :=
  hR.trans he h

/-- A computation on the state alone. -/
theorem obeys_ofPath {T : PathState → PathState → Prop} {m : PathM ε α} (inject : ε → ε')
    (h : Obeys T u.state m) (hT : ∀ s, T u.state s → R u { u with state := s }) :
    Obeys R u (TraceM.ofPath inject m) := by
  have hrun := runOn_ofPath inject m u
  unfold runOn at hrun
  rw [Obeys, hrun]
  exact hT _ h

end TraceM

end PathWitness
