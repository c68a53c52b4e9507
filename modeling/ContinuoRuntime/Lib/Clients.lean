/-
  Clients of one server, in any interleaving.

  A client asks and goes on with the answer.  The server serves a request in any
  number of steps, on a state that all clients share and a session of each; other
  parties change the shared state as well.  Nothing bounds the number of clients.

  * `Pool.Serves`, `Pool.Step`: one step of one client, or of the others;
  * `Pool.invariant_shared`: what a client keeps true of itself, and all of them of
    the shared state, given what every step may do to it;
  * `Pool.rely_guarantee`: the same where what a client may do depends on the client;
  * `Pool.count_le`: how many steps clients can take that ask only so often.
-/
import Mathlib

namespace ContinuoRuntime

/-- A program that asks a server. -/
inductive Client (Req Res α : Type) where
  | done (a : α)
  | ask (r : Req) (k : Res → Client Req Res α)

namespace Client

variable {Req Res α β : Type}

/-- One program after another. -/
def bind (f : α → Client Req Res β) : Client Req Res α → Client Req Res β
  | done a => f a
  | ask r k => ask r fun res => (k res).bind f

/-- The program after a step of the server, which may have answered. -/
def resume (r : Req) (k : Res → Client Req Res α) : Option Res → Client Req Res α
  | none => ask r k
  | some res => k res

theorem bind_done : ∀ p : Client Req Res α, p.bind .done = p
  | .done _ => rfl
  | .ask _ k => congrArg _ (funext fun res => bind_done (k res))

/-! ## Exceptions -/

variable {ε : Type}

/-- A single request. -/
def call (r : Req) : Client Req Res Res := .ask r .done

/-- One program after another; what the first raises is raised. -/
def andThen (p : Client Req Res (Except ε α)) (f : α → Client Req Res (Except ε β)) : Client Req Res (Except ε β) :=
  p.bind fun
    | .ok a => f a
    | .error e => .done (.error e)

/-- `try: p except: handler`. -/
def handle (p : Client Req Res (Except ε α)) (handler : ε → Client Req Res (Except ε α)) :
    Client Req Res (Except ε α) :=
  p.bind fun
    | .ok a => .done (.ok a)
    | .error e => handler e

/-- `try: p finally: last`: what `last` raises comes in place of what `p` raised. -/
def always (p : Client Req Res (Except ε α)) (last : Client Req Res (Except ε Unit)) : Client Req Res (Except ε α) :=
  p.bind fun result => last.andThen fun _ => .done result

/-- The program asks at most `n` times, whatever the answers. -/
def Within : ℕ → Client Req Res α → Prop
  | _, done _ => True
  | 0, ask _ _ => False
  | n + 1, ask _ k => ∀ res, Within n (k res)

theorem Within.mono {p : Client Req Res α} {m n : ℕ} (h : p.Within m) (hmn : m ≤ n) : p.Within n := by
  induction p generalizing m n with
  | done a => cases n <;> trivial
  | ask r k ih =>
    cases m with
    | zero => exact h.elim
    | succ m =>
      cases n with
      | zero => omega
      | succ n => exact fun res => ih res (h res) (Nat.le_of_succ_le_succ hmn)

/-- **One program after another** asks as often as both. -/
theorem Within.bind {p : Client Req Res α} {f : α → Client Req Res β} {m n : ℕ} (h : p.Within m)
    (hf : ∀ a, (f a).Within n) : (p.bind f).Within (m + n) := by
  induction p generalizing m with
  | done a => exact (hf a).mono (Nat.le_add_left n m)
  | ask r k ih =>
    cases m with
    | zero => exact h.elim
    | succ m =>
      rw [Nat.add_right_comm]
      exact fun res => ih res (h res)

theorem Within.done {a : α} : (done a : Client Req Res α).Within 0 := trivial

theorem Within.call {r : Req} : (call r : Client Req Res Res).Within 1 := fun _ => trivial

section
variable {p : Client Req Res (Except ε α)} {m n : ℕ}

theorem Within.andThen {f : α → Client Req Res (Except ε β)} (h : p.Within m) (hf : ∀ a, (f a).Within n) :
    (p.andThen f).Within (m + n) :=
  h.bind fun
    | .ok a => hf a
    | .error _ => Within.done.mono (Nat.zero_le n)

theorem Within.handle {handler : ε → Client Req Res (Except ε α)} (h : p.Within m) (hh : ∀ e, (handler e).Within n) :
    (p.handle handler).Within (m + n) :=
  h.bind fun
    | .ok _ => Within.done.mono (Nat.zero_le n)
    | .error e => hh e

theorem Within.always {last : Client Req Res (Except ε Unit)} (h : p.Within m) (hlast : last.Within n) :
    (p.always last).Within (m + n) := h.bind fun _ => hlast.andThen fun _ => Within.done

end

end Client

/-- The clients, with their sessions, and the state they share. -/
structure Pool (ι σ τ Req Res α : Type) where
  shared : σ
  session : ι → τ
  client : ι → Client Req Res α

namespace Pool

variable {ι σ τ Req Res α : Type} [DecidableEq ι]

section
/- One step on a request: the shared state and the session before and after it, and
   the answer, if that is ready. -/
variable (serve : Req → σ → τ → σ → τ → Option Res → Prop) (others : σ → σ → Prop)

/-- A step on the request of one client. -/
inductive Serves (i : ι) (c : Pool ι σ τ Req Res α) : Pool ι σ τ Req Res α → Prop
  | intro {r : Req} {k : Res → Client Req Res α} {s : σ} {t : τ} {res : Option Res}
      (hask : c.client i = .ask r k) (hserve : serve r c.shared (c.session i) s t res) :
      Serves i c ⟨s, Function.update c.session i t, Function.update c.client i (Client.resume r k res)⟩

/-- A step of a client, or of other parties. -/
inductive Step (c : Pool ι σ τ Req Res α) : Pool ι σ τ Req Res α → Prop
  | client {i : ι} {c' : Pool ι σ τ Req Res α} (h : Serves serve i c c') : Step c c'
  | others {s : σ} (h : others c.shared s) : Step c { c with shared := s }

/-- Any number of steps. -/
def Run : Pool ι σ τ Req Res α → Pool ι σ τ Req Res α → Prop := Relation.ReflTransGen (Step serve others)

variable {serve others}

/-- A step to a given state. -/
theorem Serves.to {i : ι} {c : Pool ι σ τ Req Res α} {r : Req} {k : Res → Client Req Res α} {s : σ} {t : τ}
    {res : Option Res} (hask : c.client i = .ask r k) (hserve : serve r c.shared (c.session i) s t res)
    {p : Client Req Res α} (hp : Client.resume r k res = p) :
    Serves serve i c ⟨s, Function.update c.session i t, Function.update c.client i p⟩ :=
  hp ▸ .intro hask hserve

/-- **What every client keeps true**, and what all of them keep true of the shared
    state: `P` holds of a client after its own steps, and no change of the shared
    state that `G` allows takes it away. -/
theorem invariant_shared (I : σ → Prop) (G : σ → σ → Prop) (P : σ → τ → Client Req Res α → Prop)
    (hserve : ∀ {r k s t s' t' res}, I s → P s t (.ask r k) → serve r s t s' t' res →
      I s' ∧ G s s' ∧ P s' t' (Client.resume r k res))
    (hothers : ∀ {s s'}, I s → others s s' → I s' ∧ G s s')
    (hstable : ∀ {s s' t p}, G s s' → P s t p → P s' t p)
    {c₀ c : Pool ι σ τ Req Res α} (hshared : I c₀.shared)
    (hinit : ∀ i, P c₀.shared (c₀.session i) (c₀.client i)) (hrun : Run serve others c₀ c) :
    I c.shared ∧ ∀ i, P c.shared (c.session i) (c.client i) := by
  induction hrun with
  | refl => exact ⟨hshared, hinit⟩
  | tail _ hstep ih =>
    obtain ⟨hI, hP⟩ := ih
    cases hstep with
    | others h =>
      obtain ⟨hI', hG⟩ := hothers hI h
      exact ⟨hI', fun j => hstable hG (hP j)⟩
    | @client i _ h =>
      obtain ⟨hask, hs⟩ := h
      have hi := hP i
      rw [hask] at hi
      obtain ⟨hI', hG, hPi⟩ := hserve hI hi hs
      refine ⟨hI', fun j => ?_⟩
      dsimp only
      by_cases hj : j = i
      · subst hj
        rwa [Function.update_self, Function.update_self]
      · rw [Function.update_of_ne hj, Function.update_of_ne hj]
        exact hstable hG (hP j)

/-- What every client keeps true, whatever the shared state. -/
theorem invariant (G : σ → σ → Prop) (P : σ → τ → Client Req Res α → Prop)
    (hserve : ∀ {r k s t s' t' res}, P s t (.ask r k) → serve r s t s' t' res →
      G s s' ∧ P s' t' (Client.resume r k res))
    (hothers : ∀ {s s'}, others s s' → G s s')
    (hstable : ∀ {s s' t p}, G s s' → P s t p → P s' t p)
    {c₀ c : Pool ι σ τ Req Res α} (hinit : ∀ i, P c₀.shared (c₀.session i) (c₀.client i))
    (hrun : Run serve others c₀ c) : ∀ i, P c.shared (c.session i) (c.client i) :=
  (invariant_shared (fun _ => True) G P (fun _ hP hs => ⟨trivial, hserve hP hs⟩)
    (fun _ h => ⟨trivial, hothers h⟩) hstable trivial hinit hrun).2

/-- **Rely and guarantee**: a step of a client keeps what holds of it and does to the
    shared state what this client may do; what holds of another client bears that, and
    bears what other parties do. -/
theorem rely_guarantee (G : ι → σ → σ → Prop) (P : ι → σ → τ → Client Req Res α → Prop)
    (hserve : ∀ {i r k s t s' t' res}, P i s t (.ask r k) → serve r s t s' t' res →
      G i s s' ∧ P i s' t' (Client.resume r k res))
    (hothers : ∀ {i s s' t p}, others s s' → P i s t p → P i s' t p)
    (hstable : ∀ {i j s s' t p}, j ≠ i → G i s s' → P j s t p → P j s' t p)
    {c₀ c : Pool ι σ τ Req Res α} (hinit : ∀ i, P i c₀.shared (c₀.session i) (c₀.client i))
    (hrun : Run serve others c₀ c) : ∀ i, P i c.shared (c.session i) (c.client i) := by
  induction hrun with
  | refl => exact hinit
  | tail _ hstep ih =>
    cases hstep with
    | others h => exact fun j => hothers h (ih j)
    | @client i _ h =>
      obtain ⟨hask, hs⟩ := h
      have hi := ih i
      rw [hask] at hi
      obtain ⟨hG, hPi⟩ := hserve hi hs
      intro j
      dsimp only
      by_cases hj : j = i
      · subst hj
        rwa [Function.update_self, Function.update_self]
      · rw [Function.update_of_ne hj, Function.update_of_ne hj]
        exact hstable hj hG (ih j)

variable (serve others) in
/-- A run with this many steps of clients. -/
inductive Counted : ℕ → Pool ι σ τ Req Res α → Pool ι σ τ Req Res α → Prop
  | refl {c : Pool ι σ τ Req Res α} : Counted 0 c c
  | client {n : ℕ} {i : ι} {c c' c'' : Pool ι σ τ Req Res α} (h : Serves serve i c c') (hrest : Counted n c' c'') :
      Counted (n + 1) c c''
  | others {n : ℕ} {s : σ} {c c' : Pool ι σ τ Req Res α} (h : others c.shared s)
      (hrest : Counted n { c with shared := s } c') : Counted n c c'

/-- **Clients that ask only so often** take so many steps, where a session bounds how often
    the server works on a request before it answers. -/
theorem count_le [Fintype ι] {bound : ℕ} (work : τ → ℕ) (hbound : ∀ t, work t ≤ bound)
    (hserve : ∀ {r s t s' t'}, serve r s t s' t' none → work t' < work t) {n : ℕ} {c c' : Pool ι σ τ Req Res α}
    (hrun : Counted serve others n c c') (asks : ι → ℕ) (hasks : ∀ i, (c.client i).Within (asks i)) :
    n ≤ ∑ i, ((bound + 1) * asks i + work (c.session i)) := by
  induction hrun generalizing asks with
  | refl => exact Nat.zero_le _
  | others h hrest ih => exact ih asks hasks
  | @client n i c c' c'' h hrest ih =>
    obtain @⟨r, k, s, t, res, hask, hs⟩ := h
    have hi := hasks i
    rw [hask] at hi
    obtain ⟨m, hm⟩ : ∃ m, asks i = m + 1 := by
      cases hn : asks i with
      | zero =>
        rw [hn] at hi
        exact hi.elim
      | succ m => exact ⟨m, rfl⟩
    rw [hm] at hi
    -- what is left of client `i`: one request less, or less work on this one
    obtain ⟨left, hleft, hless⟩ : ∃ left, (Client.resume r k res).Within left ∧
        (bound + 1) * left + work t < (bound + 1) * asks i + work (c.session i) := by
      cases res with
      | none =>
        refine ⟨m + 1, hi, ?_⟩
        have := hserve hs
        rw [hm]
        omega
      | some answer =>
        refine ⟨m, hi answer, ?_⟩
        have := hbound t
        rw [hm, Nat.mul_succ]
        omega
    have hrest := ih (Function.update asks i left) fun j => by
      dsimp only
      by_cases hj : j = i
      · subst hj
        rwa [Function.update_self, Function.update_self]
      · rw [Function.update_of_ne hj, Function.update_of_ne hj]
        exact hasks j
    refine lt_of_le_of_lt hrest (Finset.sum_lt_sum (fun j _ => ?_) ⟨i, Finset.mem_univ i, ?_⟩)
    · dsimp only
      by_cases hj : j = i
      · subst hj
        rw [Function.update_self, Function.update_self]
        exact hless.le
      · rw [Function.update_of_ne hj, Function.update_of_ne hj]
    · dsimp only
      rw [Function.update_self, Function.update_self]
      exact hless

end

end Pool

end ContinuoRuntime
