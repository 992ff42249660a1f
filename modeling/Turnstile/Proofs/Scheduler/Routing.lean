import Turnstile.Proofs.Router.Nesting
import Turnstile.Proofs.Scheduler.Admission
import Turnstile.Proofs.Scheduler.Locality

/-!
# Requests that are routed

A request whose program has come to a router in routers asks one router each time it moves on, and
what the other moves do between is of no concern to it: they leave its program, its dossier and its
part of the journal alone (`Shows.performAll`). So after as many moves of its own as there are
routes to take it stands before the step that its path is led to, with what comes behind the
outermost router behind this step. If no route matches, it leaves its worker instead with the
response that nothing was found, and this is what it is answered with.
-/

namespace Turnstile

/-- Only the request itself leaves the stage. -/
def Stage.isItsOwn : Stage → Bool
  | .queued | .drained | .reading _ _ | .writing _ => false
  | _ => true

theorem Request.beginResponse_told {σ : Type} [Exchange σ] (r : Request σ) (chunkSize : Nat)
    (response : Response) :
    ∃ reply, (r.beginResponse chunkSize response).2 =
        [.call (.startResponse response.status (r.dossier.assemble response).1.headers reply)] ∧
      (reply.error? = none → (r.beginResponse chunkSize response).1.stage =
        .writing (.new response.body chunkSize)) := by
  rw [beginResponse]
  split
  next sent dossier hassemble =>
    rw [hassemble]
    have hbody : sent.body = response.body ∧ sent.status = response.status := by
      rw [Dossier.assemble] at hassemble
      cases hassemble
      exact ⟨rfl, rfl⟩
    rw [← hbody.1, ← hbody.2]
    split
    next reply events exchange hstart =>
      dsimp only
      split
      next e herror => exact ⟨reply, rfl, fun hnone ↦ by rw [herror] at hnone; cases hnone⟩
      next herror => exact ⟨reply, rfl, fun _ ↦ rfl⟩

namespace Scheduler

open Meaning (Terms Delivery)
open Router (Nest trim)

variable {σ : Type} {s : Scheduler σ} {n : Nat} {r : Request σ} {stage : Stage}
  {program : Option Program} {dossier : Dossier} {told : List Happening} {moves : List (Move σ)}

/-! ## Moves of one request -/

/-- The request moves on. -/
def Move.isAdvance (n : Nat) : Move σ → Bool
  | .advance k => k == n
  | _ => false

/-- How often a request moves on in a run. -/
def advances (n : Nat) (moves : List (Move σ)) : Nat := moves.countP (Move.isAdvance n)

theorem exists_first_advance {count : Nat} (h : advances n moves = count + 1) :
    ∃ before after, moves = before ++ .advance n :: after ∧ advances n before = 0 ∧
      advances n after = count := by
  induction moves with
  | nil => cases h
  | cons m moves ih =>
    rw [advances, List.countP_cons] at h
    by_cases hm : m.isAdvance n = true
    · rw [if_pos hm] at h
      cases m with
      | advance k =>
        cases beq_iff_eq.mp hm
        exact ⟨[], moves, rfl, rfl, Nat.succ.inj h⟩
      | _ => cases hm
    · rw [if_neg hm] at h
      obtain ⟨before, after, rfl, hbefore, hafter⟩ := ih h
      refine ⟨m :: before, after, rfl, ?_, hafter⟩
      rw [advances, List.countP_cons, if_neg hm]
      exact hbefore

theorem exists_advances {first second : Nat} (h : advances n moves = first + second) :
    ∃ before after, moves = before ++ after ∧ advances n before = first ∧
      advances n after = second := by
  induction first generalizing moves with
  | zero => exact ⟨[], moves, rfl, rfl, h.trans (Nat.zero_add _)⟩
  | succ first ih =>
    rw [Nat.add_right_comm] at h
    obtain ⟨start, more, rfl, hstart, hmore⟩ := exists_first_advance h
    obtain ⟨before, after, rfl, hbefore, hafter⟩ := ih hmore
    refine ⟨start ++ .advance n :: before, after, by simp, ?_, hafter⟩
    rw [advances, List.countP_append, List.countP_cons, if_pos (by simp [Move.isAdvance])]
    rw [advances] at hstart hbefore
    omega

/-! ## What a request shows -/

/-- The request is at this stage with this program and this dossier, and this was told of it. -/
structure Shows (s : Scheduler σ) (n : Nat) (stage : Stage) (program : Option Program)
    (dossier : Dossier) (told : List Happening) : Prop where
  /-- The request is there. -/
  request : ∃ r, s.requests[n]? = some r ∧ r.stage = stage ∧ r.program = program ∧
    r.dossier = dossier
  /-- This was told of it. -/
  told : s.history n = told

variable [Exchange σ]

/-- What comes from outside does not change what a request shows. -/
theorem Circumstances.perform_outside {c : Circumstances} {m : Move σ}
    (hown : r.stage.isItsOwn = true) (hm : m.isAdvance n = false) (htarget : m.target? = some n) :
    ∃ r', c.perform r m = (r', []) ∧ r'.stage = r.stage ∧ r'.program = r.program ∧
      r'.dossier = r.dossier := by
  cases m with
  | advance k =>
    cases htarget
    exact absurd hm (by simp [Move.isAdvance])
  | deliver k direction events => cases direction <;> exact ⟨_, rfl, rfl, rfl, rfl⟩
  | wake k =>
    rw [Circumstances.perform]
    split <;> exact ⟨_, rfl, rfl, rfl, rfl⟩
  | forget k =>
    rw [Circumstances.perform, Circumstances.forget]
    split
    next h => rw [h] at hown; cases hown
    next h => rw [h] at hown; cases hown
    · exact ⟨_, rfl, rfl, rfl, rfl⟩
  | reprioritize k qos =>
    rw [Circumstances.perform, if_neg]
    · exact ⟨r, rfl, rfl, rfl, rfl⟩
    · cases hstage : r.stage <;> simp_all [Stage.isQueued, Stage.isItsOwn]
  | openGate k => exact ⟨r, rfl, rfl, rfl, rfl⟩
  | _ => cases htarget

theorem Shows.perform (hs : s.Shows n stage program dossier told) (h : s.Reachable)
    (hown : stage.isItsOwn = true) {m : Move σ} (hm : m.isAdvance n = false) :
    (s.perform m).Shows n stage program dossier told := by
  obtain ⟨⟨r, hr, rfl, rfl, rfl⟩, rfl⟩ := hs
  by_cases htarget : m.target? = some n
  · obtain ⟨r', hr', hsame⟩ :=
      Circumstances.perform_outside (c := s.circumstances r) hown hm htarget
    have haffects := h.affects htarget hr
    rw [hr'] at haffects
    exact ⟨⟨r', haffects.self, hsame⟩, haffects.told.trans (List.append_nil _)⟩
  · have hdrained : r.stage ≠ .drained := fun hstage ↦ by rw [hstage] at hown; cases hown
    obtain ⟨r', hr', rfl | ⟨hqueued, -⟩, hhistory⟩ := h.bystander htarget hr hdrained
    · exact ⟨⟨r', hr', rfl, rfl, rfl⟩, hhistory⟩
    · rw [hqueued] at hown
      cases hown

theorem Shows.performAll (hs : s.Shows n stage program dossier told) (h : s.Reachable)
    (hown : stage.isItsOwn = true) (hmoves : advances n moves = 0) :
    (s.performAll moves).Shows n stage program dossier told := by
  induction moves generalizing s with
  | nil => exact hs
  | cons m moves ih =>
    rw [advances, List.countP_eq_zero, List.forall_mem_cons] at hmoves
    exact ih (hs.perform h hown (Bool.eq_false_iff.mpr hmoves.1)) (h.move m)
      (List.countP_eq_zero.mpr hmoves.2)

theorem Shows.exists_advance (hs : s.Shows n stage program dossier told) (h : s.Reachable)
    (hown : stage.isItsOwn = true) {count : Nat} (hmoves : advances n moves = count + 1) :
    ∃ before after, moves = before ++ .advance n :: after ∧ advances n after = count ∧
      (s.performAll before).Shows n stage program dossier told := by
  obtain ⟨before, after, rfl, hbefore, hafter⟩ := exists_first_advance hmoves
  exact ⟨before, after, rfl, hafter, hs.performAll h hown hbefore⟩

theorem Shows.advance (hr : s.requests[n]? = some r) (h : s.Reachable) {r' : Request σ}
    {more : List Happening} (hadvance : (s.circumstances r).advance r = (r', more)) :
    (s.perform (.advance n)).Shows n r'.stage r'.program r'.dossier (s.history n ++ more) := by
  have haffects := h.affects (m := .advance n) rfl hr
  rw [Circumstances.perform, hadvance] at haffects
  exact ⟨⟨r', haffects.self, rfl, rfl, rfl⟩, haffects.told⟩

/-! ## One router -/

section

variable {k : Kind} {nest : Nest k} {routes before after taken : List (String × Nest k)}
  {front path rest : String} {step? : Option (Step k)} {p : Program} {next : Value → Program}

/-- A request that stands before a router and moves on stands before what the first route that
matches leads to. -/
theorem Shows.take (hs : s.Shows n .running (some p) dossier told) (h : s.Reachable)
    (hrun : p.run =
      (Routine.flatMap (Nest.router (before ++ (front, nest) :: after)).toStep.program next).run)
    (skips : Router.Skips dossier.path before)
    (hit : Router.strip? dossier.path front = some rest) :
    (s.perform (.advance n)).Shows n .running (some (.flatMap nest.toStep.program next))
      { dossier with path := rest } told := by
  obtain ⟨⟨r, hr, hstage, hp, rfl⟩, rfl⟩ := hs
  have hturn := Request.turn_of_hit hp hrun skips hit
  have hadvance : (s.circumstances r).advance r = r.turn := by rw [Circumstances.advance, hstage]
  simpa using Shows.advance hr h (hadvance.trans hturn)

theorem Shows.miss (hs : s.Shows n .running (some p) dossier told) (h : s.Reachable)
    (hrun : p.run = (Routine.flatMap (Nest.router routes).toStep.program next).run)
    (skips : Router.Skips dossier.path routes) :
    (s.perform (.advance n)).Shows n (.leaving (.respond .notFound)) none dossier told := by
  obtain ⟨⟨r, hr, hstage, hp, rfl⟩, rfl⟩ := hs
  have hturn := Request.turn_of_miss hp hrun skips
  have hadvance : (s.circumstances r).advance r = r.turn := by rw [Circumstances.advance, hstage]
  simpa using Shows.advance hr h (hadvance.trans hturn)

/-! ## Routers in routers -/

/-- How many routers are asked on a way that takes these routes: the last of them is asked in vain
if there is no step. -/
def asked (taken : List (String × Nest k)) (step? : Option (Step k)) : Nat :=
  taken.length + step?.elim 1 fun _ ↦ 0

/-- A request that stands before a tree of routers, and has moved on as often as routers are asked,
stands before the step, or is about to leave its worker. -/
theorem Shows.lead (hleads : nest.Leads path taken rest step?)
    (hs : s.Shows n .running (some p) dossier told) (h : s.Reachable)
    (hrun : p.run = (Routine.flatMap nest.toStep.program next).run)
    (hleaf : ∀ step, nest = .step step → p = .flatMap step.program next)
    (hpath : dossier.path = path) (hmoves : advances n moves = asked taken step?) :
    (s.performAll moves).Shows n (step?.elim (.leaving (.respond .notFound)) fun _ ↦ .running)
      (step?.map fun step ↦ .flatMap step.program next) { dossier with path := rest } told := by
  induction hleads generalizing s p dossier moves with
  | step step path =>
    subst hpath
    cases hleaf step rfl
    exact hs.performAll h rfl hmoves
  | miss skips =>
    subst hpath
    obtain ⟨before, after, rfl, hafter, hbefore⟩ := hs.exists_advance h rfl hmoves
    rw [performAll_append]
    have hmissed := hbefore.miss (h.performAll before) hrun skips
    exact hmissed.performAll ((h.performAll before).move _) rfl hafter
  | @take _ _ taken _ _ middle _ nest step? skips hit _ ih =>
    subst hpath
    rw [asked, List.length_cons, Nat.add_right_comm] at hmoves
    obtain ⟨before, after, rfl, hafter, hbefore⟩ := hs.exists_advance h rfl hmoves
    rw [performAll_append]
    have htaken := hbefore.take (h.performAll before) hrun skips hit
    have hled := ih htaken ((h.performAll before).move _) rfl (by rintro _ rfl; rfl) rfl hafter
    exact hled

end

/-! ## The response -/

theorem Shows.leave {exit : Exit} (hs : s.Shows n (.leaving exit) program dossier told)
    (h : s.Reachable) : (s.perform (.advance n)).Shows n (.departed exit) program dossier told := by
  obtain ⟨⟨r, hr, hstage, rfl, rfl⟩, rfl⟩ := hs
  have hadvance : (s.circumstances r).advance r = ({ r with stage := .departed exit }, []) := by
    rw [Circumstances.advance, hstage]
  simpa using Shows.advance hr h hadvance

theorem Shows.depart {response : Response}
    (hs : s.Shows n (.departed (.respond response)) program dossier told) (h : s.Reachable) :
    ∃ reply, (s.perform (.advance n)).history n =
        told ++ [.call (.startResponse response.status (dossier.assemble response).1.headers
          reply)] ∧
      (reply.error? = none → ∃ r', (s.perform (.advance n)).requests[n]? = some r' ∧
        r'.stage = .writing (.new response.body s.config.writeChunkSize)) := by
  obtain ⟨⟨r, hr, hstage, rfl, rfl⟩, rfl⟩ := hs
  have hadvance : (s.circumstances r).advance r =
      r.beginResponse s.config.writeChunkSize response := by
    rw [Circumstances.advance, hstage]
    rfl
  have hshows := Shows.advance hr h hadvance
  obtain ⟨reply, htold, hwriting⟩ :=
    Request.beginResponse_told r s.config.writeChunkSize response
  obtain ⟨r', hr', hstage', -⟩ := hshows.request
  exact ⟨reply, htold ▸ hshows.told, fun hnone ↦ ⟨r', hr', hstage'.trans (hwriting hnone)⟩⟩

theorem Shows.answer {response : Response}
    (hs : s.Shows n (.leaving (.respond response)) program dossier told) (h : s.Reachable)
    (hmoves : advances n moves = 1) :
    ∃ reply, (s.performAll (moves ++ [.advance n])).history n =
        told ++ [.call (.startResponse response.status (dossier.assemble response).1.headers
          reply)] ∧
      (reply.error? = none → ∃ r', (s.performAll (moves ++ [.advance n])).requests[n]? = some r' ∧
        r'.stage = .writing (.new response.body s.config.writeChunkSize)) := by
  obtain ⟨before, after, rfl, hafter, hbefore⟩ := hs.exists_advance h rfl hmoves
  have hleft := hbefore.leave (h.performAll before)
  have hdeparted := hleft.performAll ((h.performAll before).move _) rfl hafter
  rw [performAll_append, ← (h.frame_performAll (before ++ .advance n :: after)).1]
  rw [performAll_append]
  exact hdeparted.depart (((h.performAll before).move _).performAll after)

/-! ## Routed requests -/

/-- How a request is routed that stands before a router with these routes and has `next` behind
it. -/
structure Routed {k : Kind} (s : Scheduler σ) (n : Nat) (r : Request σ)
    (routes : List (String × Nest k)) (next : Value → Program) (taken : List (String × Nest k))
    (rest : String) (step? : Option (Step k)) : Prop where
  /-- At each router the first route that matches what the router above has left is taken. -/
  leads : (Nest.router routes).Leads r.dossier.path taken rest step?
  /-- There is no other way. -/
  unique : ∀ taken' rest' step?', (Nest.router routes).Leads r.dossier.path taken' rest' step?' →
    taken' = taken ∧ rest' = rest ∧ step?' = step?
  /-- The prefixes of the routes taken have been removed from the path, one after the other. -/
  path : r.dossier.path = String.join (taken.map fun route ↦ trim route.1) ++ rest
  /-- If the routes lead to code, that of the routes taken is run and no other. -/
  called : ∀ {m : Type → Type} [Monad m] [LawfulMonad m] (call : String × Nest k → m Unit),
    (Nest.router routes).callDown call r.dossier.path = do
      for route in taken do call route
      return (rest, step?)
  /-- Once a router has been asked for each route taken, the request stands before the step, with
  what is left of the path and with `next` behind the step. -/
  found : ∀ step, step? = some step → ∀ moves, advances n moves = taken.length →
    (s.performAll moves).Shows n .running (some (.flatMap step.program next))
      { r.dossier with path := rest } (s.history n)
  /-- If there is no step, one more router has been asked, and nothing is left of the program. -/
  missed : step? = none → ∀ moves, advances n moves = taken.length + 1 →
    (s.performAll moves).Shows n (.leaving (.respond .notFound)) none
      { r.dossier with path := rest } (s.history n)
  /-- Then the request is answered that nothing was found. -/
  answered : step? = none → ∀ moves, advances n moves = taken.length + 2 →
    ∃ reply, (s.performAll (moves ++ [.advance n])).history n =
        s.history n ++
          [.call (.startResponse 404 (r.dossier.assemble .notFound).1.headers reply)] ∧
      (reply.error? = none → ∃ r', (s.performAll (moves ++ [.advance n])).requests[n]? = some r' ∧
        r'.stage = .writing (.new Response.notFound.body s.config.writeChunkSize))
  /-- The program means what the step means, then what `next` means for its value; or that nothing
  was found. -/
  means : ∀ (t : Terms) (bodies : List Delivery) (notes : List String),
    let left : Meaning.State := ⟨{ r.dossier with path := rest }, bodies, notes⟩
    Meaning.ofProgram t (.flatMap (Nest.router routes).toStep.program next)
        ⟨r.dossier, bodies, notes⟩ =
      match step? with
      | some step =>
        Meaning.andThen (Meaning.ofProgram t step.program left) fun v s ↦
          Meaning.ofProgram t (next v) s
      | none => (.responds .notFound, left)

/-- **Routers in routers.** Whenever a request that runs has come to a router in whose routes there
can be routers again, to any depth, its path is led to one step or to none; and however the moves
of all requests are interleaved, once it has asked the routers on this way it stands before that
step, with the path that is left and with what comes behind the outermost router, or it is answered
that nothing was found. -/
theorem performAll_routed {k : Kind} {routes : List (String × Nest k)} {p : Program}
    {next : Value → Program} (h : s.Reachable) (hr : s.requests[n]? = some r)
    (hstage : r.stage = .running) (hp : r.program = some p)
    (hrun : p.run = (Routine.flatMap (Nest.router routes).toStep.program next).run) :
    ∃ taken rest step?, s.Routed n r routes next taken rest step? := by
  obtain ⟨taken, rest, step?, hleads⟩ := (Nest.router routes).exists_leads r.dossier.path
  have hs : s.Shows n .running (some p) r.dossier (s.history n) := ⟨⟨r, hr, hstage, hp, rfl⟩, rfl⟩
  have hled (moves : List (Move σ)) (hmoves : advances n moves = asked taken step?) :=
    hs.lead hleads h hrun nofun rfl hmoves
  refine ⟨taken, rest, step?, {
    leads := hleads
    unique := fun _ _ _ ↦ hleads.unique
    path := hleads.path_eq
    called := hleads.callDown
    found := ?_
    missed := ?_
    answered := ?_
    means := fun t bodies notes ↦ ?_ }⟩
  · rintro step rfl moves hmoves
    exact hled moves hmoves
  · rintro rfl moves hmoves
    exact hled moves hmoves
  · rintro rfl moves hmoves
    replace hmoves : advances n moves = taken.length + 1 + 1 := hmoves
    obtain ⟨before, after, rfl, hbefore, hafter⟩ := exists_advances hmoves
    have hanswer := (hled before hbefore).answer (h.performAll before) hafter
    rw [(h.frame_performAll before).1, ← performAll_append, ← List.append_assoc] at hanswer
    exact hanswer
  · rw [Meaning.ofProgram, hleads.ofProgram t rfl]
    cases step? <;> rfl

/-- Routes for two paths, one of which begins with the other. -/
def userRoutes : List (String × Nest .response) :=
  [("/users", .step (.pure (.empty 200))), ("/user", .step (.pure (.empty 201)))]

/-- A router with these routes between a step and a route for everything. -/
def overlapping : List (String × Nest .response) :=
  [("/static", .step (.pure (.empty 202)))] ++ ("/api/", .router userRoutes) ::
    [("/", .step (.pure (.empty 203)))]

/-- A request whose path leads into the inner router and no further is picked up. -/
def astray : List (Move Scripted) :=
  [.arrive (Scripted.new { (default : Metadata) with path := "/api/usersx" })
      (Nest.router overlapping).toStep.program, .advance 0, .advance 0]

theorem leads_overlapping :
    (Nest.router overlapping).Leads "/api/usersx" [("/api/", .router userRoutes)] "/usersx"
      none := by
  have hmiss : (Nest.router userRoutes).Leads "/usersx" [] "/usersx" none := by
    refine .miss fun route hroute ↦ ?_
    simp only [userRoutes, List.mem_cons, List.not_mem_nil, or_false] at hroute
    rcases hroute with rfl | rfl <;> decide
  refine .take (fun route hroute ↦ ?_) (by decide) hmiss
  rw [List.mem_singleton.mp hroute]
  decide

/-- The route for everything is not tried behind the inner router. -/
theorem performAll_routed_astray :
    start? (.sized 1) (.plain .normal) = .ok oneWorker ∧
      ∃ r, (oneWorker.performAll astray).requests[0]? = some r ∧ r.stage = .running ∧
        r.program = some (Nest.router overlapping).toStep.program ∧
        (Nest.router overlapping).toStep.program.run =
          (Routine.flatMap (Nest.router overlapping).toStep.program .pure).run ∧
        (oneWorker.performAll astray).Routed 0 r overlapping .pure [("/api/", .router userRoutes)]
          "/usersx" none := by
  have hstart : start? (.sized 1) (.plain .normal) = .ok oneWorker := rfl
  have hshown : (oneWorker.performAll astray).requests[0]?.map
      (fun r ↦ (r.stage, r.program, r.dossier.path)) =
        some (.running, some (Nest.router overlapping).toStep.program, "/api/usersx") := rfl
  obtain ⟨r, hr, hshown⟩ := Option.map_eq_some_iff.mp hshown
  simp only [Prod.mk.injEq] at hshown
  obtain ⟨hstage, hp, hpath⟩ := hshown
  have hrun : (Nest.router overlapping).toStep.program.run =
      (Routine.flatMap (Nest.router overlapping).toStep.program .pure).run := by
    rw [Nest.toStep_router, Routine.run_of_reduce_inl rfl, Routine.run_of_reduce_inl rfl]
  have hreachable := (reachable_of_start? hstart).performAll astray
  obtain ⟨taken, rest, step?, hrouted⟩ := performAll_routed hreachable hr hstage hp hrun
  obtain ⟨rfl, rfl, rfl⟩ := hrouted.unique _ _ _ (hpath ▸ leads_overlapping)
  exact ⟨hstart, r, hr, hstage, hp, hrun, hrouted⟩

end Scheduler

end Turnstile
