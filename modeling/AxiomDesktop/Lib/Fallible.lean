import Mathlib.Tactic.Common

/-!
# Computations that change a state and may fail

`Fallible ε σ` is the monad of a method on a mutable value that returns a `Result`: what the
method wrote before it failed stays written. The module gives the equations that run such a
computation step by step, the inversion of a sequence that succeeded, and three properties with
their rules:

* `ReadOnly`, the computation leaves the state alone;
* `Total`, it never fails;
* `Clean`, a failure leaves the state as it was. A sequence is clean where the part that may fail
  only reads (`Clean.of_readOnly_bind`) and where nothing fails after a write
  (`Clean.bind_total`).
-/

namespace AxiomDesktop

universe u

/-- Computations over a state `σ` that may fail with an error `ε`. -/
abbrev Fallible (ε σ : Type u) := ExceptT ε (StateM σ)

namespace Fallible

variable {ε σ α β : Type u}

/-- The outcome of a computation, and the state it leaves. -/
def exec (x : Fallible ε σ α) (s : σ) : Except ε α × σ := (ExceptT.run x).run s

@[simp] theorem exec_pure (a : α) (s : σ) :
    (pure a : Fallible ε σ α).exec s = (.ok a, s) := rfl

@[simp] theorem exec_throw (e : ε) (s : σ) :
    (throw e : Fallible ε σ α).exec s = (.error e, s) := rfl

@[simp] theorem exec_get (s : σ) : (get : Fallible ε σ σ).exec s = (.ok s, s) := rfl

@[simp] theorem exec_set (s t : σ) : (set t : Fallible ε σ PUnit).exec s = (.ok ⟨⟩, t) := rfl

@[simp] theorem exec_modify (f : σ → σ) (s : σ) :
    (modify f : Fallible ε σ PUnit).exec s = (.ok ⟨⟩, f s) := rfl

/-- What follows a step runs on the state it leaves, and only where it succeeded. -/
def andThen (r : Except ε α × σ) (f : α → Fallible ε σ β) : Except ε β × σ :=
  match r with
  | (.ok a, s) => (f a).exec s
  | (.error e, s) => (.error e, s)

@[simp] theorem andThen_ok (a : α) (s : σ) (f : α → Fallible ε σ β) :
    andThen (.ok a, s) f = (f a).exec s := rfl

@[simp] theorem andThen_error (e : ε) (s : σ) (f : α → Fallible ε σ β) :
    andThen (.error e, s) f = (.error e, s) := rfl

theorem exec_bind (x : Fallible ε σ α) (f : α → Fallible ε σ β) (s : σ) :
    (x >>= f).exec s = andThen (x.exec s) f := by
  show ExceptT.bindCont f (x.exec s).1 (x.exec s).2 = andThen (x.exec s) f
  rcases x.exec s with ⟨e | a, t⟩ <;> rfl

/-- A sequence that succeeds is two steps that succeed. -/
theorem exec_bind_ok {x : Fallible ε σ α} {f : α → Fallible ε σ β} {s t : σ} {b : β} :
    (x >>= f).exec s = (.ok b, t) ↔ ∃ a r, x.exec s = (.ok a, r) ∧ (f a).exec r = (.ok b, t) := by
  rw [exec_bind]
  rcases hx : x.exec s with ⟨e | a, r⟩ <;> simp

/-- A sequence fails in its first step, or in its second where the first succeeded. -/
theorem exec_bind_error {x : Fallible ε σ α} {f : α → Fallible ε σ β} {s t : σ} {e : ε} :
    (x >>= f).exec s = (.error e, t) ↔
      x.exec s = (.error e, t) ∨
        ∃ a r, x.exec s = (.ok a, r) ∧ (f a).exec r = (.error e, t) := by
  rw [exec_bind]
  rcases hx : x.exec s with ⟨e' | a, r⟩ <;> simp

/-- A sequence of results that succeeds is two results that do. -/
theorem result_bind_ok {x : Except ε α} {f : α → Except ε β} {b : β} (h : x >>= f = .ok b) :
    ∃ a, x = .ok a ∧ f a = .ok b := by
  cases x with
  | error e => cases h
  | ok a => exact ⟨a, rfl, h⟩

/-- A sequence of results succeeds where both are there. -/
theorem result_bind_eq_ok {x : Except ε α} {f : α → Except ε β} {b : β} :
    (x >>= f) = .ok b ↔ ∃ a, x = .ok a ∧ f a = .ok b := by
  constructor
  · exact result_bind_ok
  · rintro ⟨a, rfl, h⟩
    exact h

/-- The elements of a list of results, where all of them are there. -/
theorem mem_of_mapM_ok {f : α → Except ε β} {as : List α} {bs : List β}
    (h : as.mapM f = .ok bs) {b : β} : b ∈ bs ↔ ∃ a ∈ as, f a = .ok b := by
  induction as generalizing bs with
  | nil =>
    cases h
    simp
  | cons a as ih =>
    rw [List.mapM_cons] at h
    obtain ⟨b', hb, h⟩ := result_bind_ok h
    obtain ⟨bs', hbs, h⟩ := result_bind_ok h
    cases h
    simp [ih hbs, hb, eq_comm]

/-! ## Checks -/

/-- Fails where the condition holds. -/
def failIf (c : Prop) [Decidable c] (e : ε) : Fallible ε σ PUnit := if c then throw e else pure ⟨⟩

/-- `Option::ok_or`: the value, or the error where there is none. -/
def okOr (o : Option α) (e : ε) : Fallible ε σ α :=
  match o with
  | some a => pure a
  | none => throw e

/-- The `?` operator on a `Result` that needs no state. -/
def ofResult (r : Except ε α) : Fallible ε σ α :=
  match r with
  | .ok a => pure a
  | .error e => throw e

theorem exec_failIf (c : Prop) [Decidable c] (e : ε) (s : σ) :
    (failIf c e : Fallible ε σ PUnit).exec s = (if c then .error e else .ok ⟨⟩, s) := by
  unfold failIf
  split <;> rfl

@[simp] theorem exec_failIf_ok {c : Prop} [Decidable c] {e : ε} {s t : σ} {u : PUnit} :
    (failIf c e : Fallible ε σ PUnit).exec s = (.ok u, t) ↔ ¬c ∧ s = t := by
  rw [exec_failIf]
  by_cases hc : c <;> simp [hc]

@[simp] theorem exec_okOr_ok {o : Option α} {e : ε} {s t : σ} {a : α} :
    (okOr o e : Fallible ε σ α).exec s = (.ok a, t) ↔ o = some a ∧ s = t := by
  cases o <;> simp [okOr]

@[simp] theorem exec_ofResult_ok {r : Except ε α} {s t : σ} {a : α} :
    (ofResult r : Fallible ε σ α).exec s = (.ok a, t) ↔ r = .ok a ∧ s = t := by
  cases r <;> simp [ofResult]

/-- The result of a computation, a failure included, so that what follows can act on it. -/
def attempt (x : Fallible ε σ α) : Fallible ε σ (Except ε α) :=
  fun s => (.ok (x.exec s).1, (x.exec s).2)

@[simp] theorem exec_attempt (x : Fallible ε σ α) (s : σ) :
    (attempt x).exec s = (.ok (x.exec s).1, (x.exec s).2) := rfl

/-- `Result::map_err`. -/
def mapError {ε' : Type u} (f : ε → ε') (x : Fallible ε σ α) : Fallible ε' σ α :=
  fun s => ((x.exec s).1.mapError f, (x.exec s).2)

/-- The computation on a part of a larger state, which `read` takes out and `write` puts back. -/
def focus {τ : Type u} (read : τ → σ) (write : σ → τ → τ) (x : Fallible ε σ α) :
    Fallible ε τ α :=
  fun t => ((x.exec (read t)).1, write (x.exec (read t)).2 t)

/-- A loop that succeeds goes on to the rounds that follow. -/
theorem exec_forM_append {f : α → Fallible ε σ PUnit} {as bs : List α} {s t : σ}
    (h : (as.forM f).exec s = (.ok ⟨⟩, t)) :
    ((as ++ bs).forM f).exec s = (bs.forM f).exec t := by
  induction as generalizing s with
  | nil =>
    obtain rfl : s = t := congrArg Prod.snd h
    rfl
  | cons a as ih =>
    obtain ⟨_, r, ha, has⟩ := exec_bind_ok.mp h
    show (f a >>= fun _ => List.forM (as ++ bs) f).exec s = _
    rw [exec_bind, ha, andThen_ok, ih has]

/-- A loop of one round. -/
theorem exec_forM_singleton {f : α → Fallible ε σ PUnit} {a : α} {s t : σ}
    (h : (f a).exec s = (.ok ⟨⟩, t)) : ([a].forM f).exec s = (.ok ⟨⟩, t) :=
  exec_bind_ok.mpr ⟨⟨⟩, t, h, rfl⟩

/-! ## Computations that only read, never fail, or fail without a trace -/

/-- The computation leaves the state alone. -/
def ReadOnly (x : Fallible ε σ α) : Prop := ∀ s, (x.exec s).2 = s

/-- The computation never fails. -/
def Total (x : Fallible ε σ α) : Prop := ∀ s, ∃ a t, x.exec s = (.ok a, t)

/-- Where the computation fails, the state is as it was. -/
def Clean (x : Fallible ε σ α) : Prop := ∀ s e t, x.exec s = (.error e, t) → t = s

theorem readOnly_pure (a : α) : (pure a : Fallible ε σ α).ReadOnly := fun _ => rfl

theorem readOnly_throw (e : ε) : (throw e : Fallible ε σ α).ReadOnly := fun _ => rfl

theorem readOnly_get : (get : Fallible ε σ σ).ReadOnly := fun _ => rfl

theorem readOnly_failIf (c : Prop) [Decidable c] (e : ε) :
    (failIf c e : Fallible ε σ PUnit).ReadOnly := by
  intro s
  rw [exec_failIf]

theorem readOnly_okOr (o : Option α) (e : ε) : (okOr o e : Fallible ε σ α).ReadOnly := by
  cases o
  · exact readOnly_throw e
  · exact readOnly_pure _

theorem readOnly_ofResult (r : Except ε α) : (ofResult r : Fallible ε σ α).ReadOnly := by
  cases r
  · exact readOnly_throw _
  · exact readOnly_pure _

theorem ReadOnly.bind {x : Fallible ε σ α} {f : α → Fallible ε σ β} (hx : x.ReadOnly)
    (hf : ∀ a, (f a).ReadOnly) : (x >>= f).ReadOnly := by
  intro s
  have hs := hx s
  rw [exec_bind]
  rcases h : x.exec s with ⟨e | a, t⟩ <;> rw [h] at hs
  · exact hs
  · rw [andThen_ok, hf a t]
    exact hs

theorem total_pure (a : α) : (pure a : Fallible ε σ α).Total := fun s => ⟨a, s, rfl⟩

theorem total_modify (f : σ → σ) : (modify f : Fallible ε σ PUnit).Total :=
  fun s => ⟨⟨⟩, f s, rfl⟩

theorem Total.bind {x : Fallible ε σ α} {f : α → Fallible ε σ β} (hx : x.Total)
    (hf : ∀ a, (f a).Total) : (x >>= f).Total := by
  intro s
  obtain ⟨a, r, ha⟩ := hx s
  obtain ⟨b, t, hb⟩ := hf a r
  exact ⟨b, t, exec_bind_ok.mpr ⟨a, r, ha, hb⟩⟩

theorem Total.mapM {f : α → Fallible ε σ β} (hf : ∀ a, (f a).Total) (as : List α) :
    (as.mapM f).Total := by
  induction as with
  | nil => exact total_pure []
  | cons a as ih =>
    rw [List.mapM_cons]
    exact (hf a).bind fun b => ih.bind fun bs => total_pure (b :: bs)

theorem ReadOnly.clean {x : Fallible ε σ α} (hx : x.ReadOnly) : x.Clean := by
  intro s e t h
  have := hx s
  rw [h] at this
  exact this

theorem Total.clean {x : Fallible ε σ α} (hx : x.Total) : x.Clean := by
  intro s e t h
  obtain ⟨a, r, hr⟩ := hx s
  rw [hr] at h
  cases congrArg Prod.fst h

/-- Where the first step only reads, the sequence is clean if its second step is. -/
theorem Clean.of_readOnly_bind {x : Fallible ε σ α} {f : α → Fallible ε σ β} (hx : x.ReadOnly)
    (hf : ∀ a, (f a).Clean) : (x >>= f).Clean := by
  intro s e t h
  rcases exec_bind_error.mp h with h | ⟨a, r, ha, h⟩
  · exact hx.clean s e t h
  · have hr : r = s := by
      have := hx s
      rw [ha] at this
      exact this
    rw [← hr]
    exact hf a r e t h

/-- Where nothing can fail after the first step, the sequence is clean if the first step is. -/
theorem Clean.bind_total {x : Fallible ε σ α} {f : α → Fallible ε σ β} (hx : x.Clean)
    (hf : ∀ a, (f a).Total) : (x >>= f).Clean := by
  intro s e t h
  rcases exec_bind_error.mp h with h | ⟨a, r, _, h⟩
  · exact hx s e t h
  · obtain ⟨b, q, hq⟩ := hf a r
    rw [hq] at h
    cases congrArg Prod.fst h

/-! ## Weakest preconditions -/

/-- The computation ends in a state that meets `ok` with the value it returns or, where it fails,
in one that meets `err` with its error. -/
def Wp (x : Fallible ε σ α) (ok : α → σ → Prop) (err : ε → σ → Prop) (s : σ) : Prop :=
  match x.exec s with
  | (.ok a, t) => ok a t
  | (.error e, t) => err e t

section Wp

variable {ok : β → σ → Prop} {err : ε → σ → Prop} {s : σ}

/-- Every computation ends where it ends. -/
theorem Wp.exec (x : Fallible ε σ β) (s : σ) :
    x.Wp (fun b t => x.exec s = (.ok b, t)) (fun e t => x.exec s = (.error e, t)) s := by
  unfold Wp
  rcases x.exec s with ⟨e | b, t⟩ <;> rfl

theorem Wp.and {x : Fallible ε σ β} {ok' : β → σ → Prop} {err' : ε → σ → Prop}
    (h : x.Wp ok err s) (h' : x.Wp ok' err' s) :
    x.Wp (fun b t => ok b t ∧ ok' b t) (fun e t => err e t ∧ err' e t) s := by
  unfold Wp at *
  rcases hx : x.exec s with ⟨e | b, t⟩ <;> rw [hx] at h h' <;> exact ⟨h, h'⟩

theorem Wp.mono {x : Fallible ε σ β} {ok' : β → σ → Prop} {err' : ε → σ → Prop}
    (h : x.Wp ok' err' s) (hok : ∀ b t, ok' b t → ok b t) (herr : ∀ e t, err' e t → err e t) :
    x.Wp ok err s := by
  unfold Wp at h ⊢
  rcases hx : x.exec s with ⟨e | b, t⟩ <;> rw [hx] at h
  · exact herr e t h
  · exact hok b t h

@[simp] theorem wp_pure (b : β) : (pure b : Fallible ε σ β).Wp ok err s ↔ ok b s := Iff.rfl

@[simp] theorem wp_throw (e : ε) : (throw e : Fallible ε σ β).Wp ok err s ↔ err e s := Iff.rfl

@[simp] theorem wp_get {ok : σ → σ → Prop} :
    (get : Fallible ε σ σ).Wp ok err s ↔ ok s s := Iff.rfl

@[simp] theorem wp_set {ok : PUnit → σ → Prop} (t : σ) :
    (set t : Fallible ε σ PUnit).Wp ok err s ↔ ok ⟨⟩ t := Iff.rfl

@[simp] theorem wp_modify {ok : PUnit → σ → Prop} (f : σ → σ) :
    (modify f : Fallible ε σ PUnit).Wp ok err s ↔ ok ⟨⟩ (f s) := Iff.rfl

@[simp] theorem wp_bind (x : Fallible ε σ α) (f : α → Fallible ε σ β) :
    (x >>= f).Wp ok err s ↔ x.Wp (fun a t => (f a).Wp ok err t) err s := by
  unfold Wp
  rw [exec_bind]
  rcases x.exec s with ⟨e | a, t⟩ <;> exact Iff.rfl

@[simp] theorem wp_failIf {ok : PUnit → σ → Prop} (c : Prop) [Decidable c] (e : ε) :
    (failIf c e : Fallible ε σ PUnit).Wp ok err s ↔ (c → err e s) ∧ (¬c → ok ⟨⟩ s) := by
  unfold failIf
  by_cases hc : c <;> simp [hc]

@[simp] theorem wp_okOr (o : Option β) (e : ε) :
    (okOr o e : Fallible ε σ β).Wp ok err s ↔
      (o = none → err e s) ∧ ∀ b, o = some b → ok b s := by
  cases o <;> simp [okOr]

@[simp] theorem wp_ofResult (r : Except ε β) :
    (ofResult r : Fallible ε σ β).Wp ok err s ↔
      (∀ e, r = .error e → err e s) ∧ ∀ b, r = .ok b → ok b s := by
  cases r <;> simp [ofResult]

/-- A caught failure is a value. -/
@[simp] theorem wp_attempt {x : Fallible ε σ α} {ok : Except ε α → σ → Prop} :
    (attempt x).Wp ok err s ↔ x.Wp (fun a t => ok (.ok a) t) (fun e t => ok (.error e) t) s := by
  unfold Wp
  rw [exec_attempt]
  rcases x.exec s with ⟨e | a, t⟩ <;> exact Iff.rfl

@[simp] theorem wp_mapError {ε' : Type u} {err : ε' → σ → Prop} (f : ε → ε')
    (x : Fallible ε σ β) :
    (mapError f x).Wp ok err s ↔ x.Wp ok (fun e t => err (f e) t) s := by
  unfold Wp
  have hx : (mapError f x).exec s = ((x.exec s).1.mapError f, (x.exec s).2) := rfl
  rw [hx]
  rcases x.exec s with ⟨e | b, t⟩ <;> exact Iff.rfl

@[simp] theorem wp_focus {τ : Type u} {ok : β → τ → Prop} {err : ε → τ → Prop} (read : τ → σ)
    (write : σ → τ → τ) (x : Fallible ε σ β) (t : τ) :
    (focus read write x).Wp ok err t ↔
      x.Wp (fun b p => ok b (write p t)) (fun e p => err e (write p t)) (read t) := by
  unfold Wp
  have hx : (focus read write x).exec t = ((x.exec (read t)).1, write (x.exec (read t)).2 t) := rfl
  rw [hx]
  rcases x.exec (read t) with ⟨e | b, p⟩ <;> exact Iff.rfl

/-- **The loop rule.** A property of the elements done and the state that holds before the loop
and is kept by every round holds after the loop, and a property of every failing round holds of a
loop that fails. -/
theorem Wp.forM {I : List α → σ → Prop} {f : α → Fallible ε σ PUnit} (start : I [] s)
    (round : ∀ done a t, I done t → (f a).Wp (fun _ t' => I (done ++ [a]) t') err t)
    (as : List α) : (as.forM f).Wp (fun _ t => I as t) err s := by
  suffices h : ∀ done as t, I done t → (List.forM as f).Wp (fun _ t => I (done ++ as) t) err t from
    h [] as s start
  intro done as
  induction as generalizing done with
  | nil =>
    intro t ht
    show I (done ++ []) t
    rwa [List.append_nil]
  | cons a as ih =>
    intro t ht
    show (f a >>= fun _ => List.forM as f).Wp _ err t
    rw [wp_bind]
    refine (round done a t ht).mono (fun _ t' ht' => ?_) fun _ _ h => h
    have := ih (done ++ [a]) t' ht'
    rwa [List.append_assoc] at this

end Wp

end Fallible

end AxiomDesktop
