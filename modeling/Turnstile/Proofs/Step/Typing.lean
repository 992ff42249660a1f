import Turnstile.Proofs.Request.Turns
import Turnstile.Router

/-!
# The kinds of programs

A program is an untyped routine: its continuations take any value. What keeps the values and the
continuations together is a discipline of those who build steps. `Program.HasKind` writes it down:
a question is asked where the documented answer is awaited, a bind leads from some kind to the next
with every value of that kind, and a program that a question leads into yields what is awaited of
the question.

The code of a program may break off where it likes, with a fault of its own. The one fault that is
not its own is that of a continuation resumed with a value of another kind; a program of some kind
never breaks off with it.
-/

namespace Turnstile

/-! ## Values and faults -/

/-- The value is one of kind `k`. -/
def Value.Is (v : Value) (k : Kind) : Prop := (k.project? v).isSome = true

/-- User code raised the fault by itself: no continuation was resumed with a value of another
kind. -/
def Fault.IsOwn (fault : Fault) : Prop := ∀ k, fault ≠ .wrongKind k

/-- Whatever a cleaner raises is its own. -/
def Cleaner.IsOwn {N : Type} : Cleaner N → Prop
  | .done => True
  | .note _ next => next.IsOwn
  | .fail fault => fault.IsOwn
  | .invoke _ next => ∀ started, (next started).IsOwn

namespace Kind

variable {k : Kind} {v : Value}

theorem is_inject (k : Kind) (x : k.Carrier) : (k.inject x).Is k := by
  rw [Value.Is, project?_inject]
  rfl

theorem exists_inject_of_is (h : v.Is k) : ∃ x, k.project? v = some x ∧ v = k.inject x := by
  obtain ⟨x, hx⟩ := Option.isSome_iff_exists.mp h
  exact ⟨x, hx, (inject_of_project? hx).symm⟩

end Kind

/-! ## Programs -/

/-- The operation is answered with a value of its own kind and carries no code of the user. -/
def Operation.isPlain : Operation → Bool
  | .abort _ | .addCleaner _ | .routePath _ | .continueWith _ _ => false
  | _ => true

/-- The program yields values of kind `k`, if it yields any. -/
inductive Program.HasKind : Kind → Program → Prop where
  /-- A value of the kind. -/
  | pure {k : Kind} {v : Value} (h : v.Is k) : HasKind k (.pure v)
  /-- The program breaks off by itself. -/
  | raise {k : Kind} {fault : Fault} (h : fault.IsOwn) : HasKind k (.raise fault)
  /-- What follows goes on with every value of the kind that comes before. -/
  | flatMap {j k : Kind} {base : Program} {next : Value → Program} (hbase : HasKind j base)
    (hnext : ∀ v, v.Is j → HasKind k (next v)) : HasKind k (.flatMap base next)
  /-- A question is answered with a value of its documented kind. -/
  | ask {op : Operation} (plain : op.isPlain = true) : HasKind op.answer (.suspend op)
  /-- So is the registration of a cleaner. -/
  | addCleaner {action : Cleaner String} (h : action.IsOwn) :
    HasKind .handle (.suspend (.addCleaner action))
  /-- An abort is not answered. -/
  | abort {k : Kind} (response : Response) : HasKind k (.suspend (.abort response))
  /-- A dispatch is answered with what the program it leads to yields. -/
  | routePath {k : Kind} {matcher : String → RouteMatch Program}
    (hits : ∀ path rest p, matcher path = .hit rest p → HasKind k p)
    (faults : ∀ path fault, matcher path = .fault fault → fault.IsOwn) :
    HasKind k (.suspend (.routePath matcher))
  /-- So is going on under another path. -/
  | continueWith {k : Kind} {path : String} {p : Program} (h : HasKind k p) :
    HasKind k (.suspend (.continueWith path p))

/-- What is left of a program of kind `k` after a run. -/
def Program.LeavesKind (k : Kind) : Routine.Outcome Operation Value → Prop
  | .finished v => v.Is k
  | .suspended op next =>
    ∃ j, Program.HasKind j (.suspend op) ∧ ∀ v, v.Is j → Program.HasKind k (next v)
  | .faulted fault => fault.IsOwn

namespace Program.HasKind

variable {k : Kind} {p p' : Program} {outcome : Routine.Outcome Operation Value}

theorem reduce_inl (h : HasKind k p) (hreduce : p.reduce = .inl outcome) :
    LeavesKind k outcome := by
  unfold Routine.reduce at hreduce
  split at hreduce
  next v =>
    cases hreduce
    cases h with
    | pure hv => exact hv
  next op =>
    cases hreduce
    exact ⟨k, h, fun v ↦ .pure⟩
  next fault =>
    cases hreduce
    cases h with
    | raise hfault => exact hfault
  · cases hreduce
  next op next =>
    cases hreduce
    cases h with
    | @flatMap j _ _ _ hop hnext => exact ⟨j, hop, hnext⟩
  next fault next =>
    cases hreduce
    cases h with
    | flatMap hfault hnext =>
      cases hfault with
      | raise hfault => exact hfault
  · cases hreduce

theorem reduce_inr (h : HasKind k p) (hreduce : p.reduce = .inr p') : HasKind k p' := by
  unfold Routine.reduce at hreduce
  split at hreduce <;> cases hreduce
  next v next =>
    cases h with
    | flatMap hv hnext =>
      cases hv with
      | pure hv => exact hnext v hv
  next base next₁ next₂ =>
    -- the rotated binds lead through the same kinds
    cases h with
    | flatMap hinner hnext₂ =>
      cases hinner with
      | flatMap hbase hnext₁ => exact .flatMap hbase fun v hv ↦ .flatMap (hnext₁ v hv) hnext₂

theorem run (h : HasKind k p) : LeavesKind k p.run := by
  induction p using Routine.wellFounded_follows.induction with
  | _ p ih =>
    cases hreduce : p.reduce with
    | inl outcome =>
      rw [Routine.run_of_reduce_inl hreduce]
      exact h.reduce_inl hreduce
    | inr p' =>
      rw [Routine.run_of_reduce_inr hreduce]
      exact ih p' (.turn hreduce) (h.reduce_inr hreduce)

end Program.HasKind

/-! ## Steps -/

namespace Step

variable {j k : Kind}

/-- The steps that are built from steps with the constructors. The functions that the constructors
take may break off with a fault of their own wherever they yield a step or a match. -/
inductive Built : {k : Kind} → Step k → Prop where
  | pure {k : Kind} (x : k.Carrier) : Built (pure x)
  | raise {k : Kind} {fault : Fault} (own : fault.IsOwn) : Built (raise fault : Step k)
  | flatMap {j k : Kind} {s : Step j} {f : j.Carrier → Step k} (hs : Built s)
    (hf : ∀ x, Built (f x)) : Built (s.flatMap f)
  | map {j k : Kind} {s : Step j} (f : j.Carrier → k.Carrier) (hs : Built s) : Built (s.map f)
  | andThen {j k : Kind} {s : Step j} {t : Step k} (hs : Built s) (ht : Built t) :
    Built (s.andThen t)
  | abort {k : Kind} (response : Response) : Built (abort response : Step k)
  | addHeaders (headers : Pairs) : Built (addHeaders headers)
  | addCookie (cookie : Cookie) : Built (addCookie cookie)
  | addCleaner {action : Cleaner String} (own : action.IsOwn) : Built (addCleaner action)
  | invokeCleaner (handle : Nat) : Built (invokeCleaner handle)
  | getMethod : Built getMethod
  | getHeaderNames : Built getHeaderNames
  | getHeader (name : String) : Built (getHeader name)
  | getCookies (name : String) : Built (getCookies name)
  | getParameterNames : Built getParameterNames
  | getParameter (name : String) : Built (getParameter name)
  | readBody (limit : Nat) : Built (readBody limit)
  | getQos : Built getQos
  | setQos (qos : Qos) : Built (setQos qos)
  | routePath {k : Kind} {matcher : String → RouteMatch (Step k)}
    (hits : ∀ path rest s, matcher path = .hit rest s → Built s)
    (faults : ∀ path fault, matcher path = .fault fault → fault.IsOwn) :
    Built (routePath matcher)
  | continueWith {k : Kind} (path : String) {s : Step k} (hs : Built s) :
    Built (continueWith path s)
  | router {k : Kind} {router : Router k}
    (hroutes : ∀ route ∈ router.routes.toList, Built route.2) :
    Built router.toStep
  | note (text : String) : Built (note text)
  | gate : Built gate
  | look (handle : Nat) : Built (look handle)

theorem hasKind_suspend {op : Operation} (plain : op.isPlain = true) (hanswer : op.answer = k) :
    (suspend k op).program.HasKind k := by
  rw [← hanswer]
  exact .ask plain

theorem hasKind_flatMap {s : Step j} {f : j.Carrier → Step k} (hs : s.program.HasKind j)
    (hf : ∀ x, (f x).program.HasKind k) : (s.flatMap f).program.HasKind k := by
  refine .flatMap hs fun v hv ↦ ?_
  obtain ⟨x, hx, -⟩ := Kind.exists_inject_of_is hv
  rw [expect, hx]
  exact hf x

theorem hasKind_routePath {matcher : String → RouteMatch (Step k)}
    (hits : ∀ path rest s, matcher path = .hit rest s → s.program.HasKind k)
    (faults : ∀ path fault, matcher path = .fault fault → fault.IsOwn) :
    (Step.routePath matcher).program.HasKind k := by
  refine .routePath (fun path rest p hp ↦ ?_) fun path fault hfault ↦ ?_
  · split at hp <;> cases hp
    next hmatch => exact hits path _ _ hmatch
  · split at hfault <;> cases hfault
    next hmatch => exact faults path _ hmatch

theorem mem_of_firstMatch {routes : List (String × Step k)} {path rest : String} {s : Step k}
    (h : Router.firstMatch routes path = .hit rest s) : ∃ front, (front, s) ∈ routes := by
  unfold Router.firstMatch at h
  split at h
  next rest' s' hfind =>
    cases h
    obtain ⟨⟨front, s'⟩, hmem, hstrip⟩ := List.exists_of_findSome?_eq_some hfind
    obtain ⟨rest', -, heq⟩ := Option.map_eq_some_iff.mp hstrip
    cases heq
    exact ⟨front, hmem⟩
  · cases h

/-- A step that was built yields values of its kind. -/
theorem Built.hasKind {s : Step k} (h : s.Built) : s.program.HasKind k := by
  induction h with
  | pure x => exact .pure (Kind.is_inject _ x)
  | raise own => exact .raise own
  | flatMap hs hf ihs ihf => exact hasKind_flatMap ihs ihf
  | map f hs ihs => exact hasKind_flatMap ihs fun x ↦ .pure (Kind.is_inject _ (f x))
  | andThen hs ht ihs iht => exact hasKind_flatMap ihs fun _ ↦ iht
  | abort response => exact .abort response
  | addCleaner own => exact .addCleaner own
  | routePath hits faults ih => exact hasKind_routePath ih faults
  | continueWith path hs ihs => exact .continueWith ihs
  | router hroutes ih =>
    refine hasKind_routePath (fun path rest s hs ↦ ?_) fun path fault hfault ↦ ?_
    · obtain ⟨front, hmem⟩ := mem_of_firstMatch hs
      exact ih _ hmem
    · unfold Router.firstMatch at hfault
      split at hfault <;> cases hfault
  | _ => exact hasKind_suspend rfl rfl

end Step

end Turnstile
