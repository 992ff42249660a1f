import Turnstile.Exchange.Scripted
import Turnstile.Proofs.Request.Typing
import Turnstile.Proofs.Scheduler.Course

/-!
# Programs of steps are safe

A request arrives with a step that yields a response. From then on, whatever the moves and whatever
exchange and hooks do, the engine, the answers to its operations and the readers of its bodies keep
the kind of its program, so no continuation is resumed with a value of another kind and the program
does not end with anything but a response.
-/

namespace Turnstile

namespace Scheduler

variable {σ : Type} [Exchange σ]

/-- A step that was built yields values of its kind; the engine keeps the kind of a program up to
where it stops; what it stopped for is answered with a value of its documented kind; and a request
that arrives with a step that yields a response keeps that through every run, so its program is
never resumed with a value of another kind, and the sensor never hears that it finished without a
response. -/
theorem performAll_typed :
    (∀ (k : Kind) (step : Step k), step.Built → step.program.HasKind k) ∧
    (∀ (k : Kind) (p : Program), p.HasKind k → Program.LeavesKind k p.run) ∧
    (∀ (j : Kind) (op : Operation) (m : Metadata) (d : Dossier),
      Program.HasKind j (.suspend op) → d.cleaners.IsOwn → (d.answer m op).Fits j) ∧
    ∀ (s : Scheduler σ) (exchange : σ) (step : Step .response) (moves : List (Move σ))
      (r : Request σ), s.Reachable → step.Built →
      ((s.arrive exchange step.program).performAll moves).requests[s.requests.size]? = some r →
        r.Typed ∧ r.KindSafe ∧
        ∀ message, .error message ∈ Request.answersOf
            (((s.arrive exchange step.program).performAll moves).history s.requests.size) →
          message ≠ "request program finished without a Response" := by
  refine ⟨fun _ _ ↦ Step.Built.hasKind, fun _ _ ↦ Program.HasKind.run,
    fun _ _ m _ hop ↦ Dossier.fits_answer hop m, ?_⟩
  intro s exchange step moves r h hstep hr
  have harrived : (s.arrive exchange step.program).Reachable :=
    h.move (.arrive exchange step.program)
  obtain ⟨hnew, hhistory⟩ := h.arrival exchange step.program
  obtain ⟨r', told, hr', htold, hrun⟩ := harrived.run_performAll moves hnew
  cases hr.symm.trans hr'
  rw [hhistory, List.nil_append] at htold
  have hstart := Request.typed_new s.requests.size
    (s.hooks.classOf s.config.defaultQos s.requests.size (Exchange.metadata exchange)) exchange
    hstep.hasKind
  have htyped : r.Typed := hrun.typed hstart
  refine ⟨htyped, htyped.kindSafe, ?_⟩
  rw [htold]
  intro message hmessage
  obtain ⟨failure, hown, rfl⟩ := hrun.isOwn_of_error hstart hmessage
  exact hown.message_ne _

/-- A step that responds by whether there is a body. -/
def acknowledge (body : Bytes) : Step .response :=
  if body = [] then .abort .notFound else .pure (Response.empty 204)

/-- A router that leads to a step that reads a body of at most four bytes and responds to it. -/
def upload : Step .response :=
  (Router.ofList [("/", (Step.readBody 4).flatMap acknowledge)]).toStep

theorem built_upload : upload.Built := by
  apply Step.Built.router
  intro route hroute
  rw [Router.ofList, Journal.toList_ofList, List.mem_singleton] at hroute
  subst hroute
  apply Step.Built.flatMap (.readBody 4)
  intro body
  unfold acknowledge
  split
  · exact .abort .notFound
  · exact .pure _

/-- An exchange with a body of two bytes. -/
def twoBytes : Scripted := { Scripted.new default with bodyEvents := [.data [1, 2], .allRead] }

/-- A request moves on until its body has been read, while the scheduler is stopped. -/
def uploaded : List (Move Scripted) := [.advance 0, .stop] ++ List.replicate 7 (.advance 0)

/-- With one worker the program yields responses, as far as the engine runs it at once and where its
body is read, and the request is safe where its body has been read. -/
theorem performAll_typed_upload :
    ∃ s : Scheduler Scripted, s.Reachable ∧ upload.Built ∧ upload.program.HasKind .response ∧
      Program.LeavesKind .response upload.program.run ∧
      ((Dossier.new .normal "/").answer default (.readBody 4)).Fits .bytes ∧
      ∃ r, ((s.arrive twoBytes upload.program).performAll uploaded).requests[s.requests.size]? =
          some r ∧
        r.stage = .returning ∧ r.KindSafe := by
  have hstart : start? (.sized 1) (.plain .normal) =
    .ok (.new (.sized 1) (.plain .normal) : Scheduler Scripted) := rfl
  have hstage : (((Scheduler.new (.sized 1) (.plain .normal)).arrive twoBytes
      upload.program).performAll uploaded).requests[0]?.map Request.stage =
        some .returning := by cbv
  obtain ⟨r, hr, hstage⟩ := Option.map_eq_some_iff.mp hstage
  obtain ⟨hkind, hleaves, hfits, htyped⟩ := performAll_typed (σ := Scripted)
  have hupload := hkind _ upload built_upload
  have hasked : Program.HasKind .bytes (.suspend (.readBody 4)) :=
    @Program.HasKind.ask (.readBody 4) rfl
  obtain ⟨-, hsafe, -⟩ := htyped _ twoBytes upload _ r (reachable_of_start? hstart) built_upload hr
  exact ⟨_, reachable_of_start? hstart, built_upload, hupload, hleaves _ _ hupload,
    hfits _ _ _ _ hasked Cleanup.isOwn_empty, r, hr, hstage, hsafe⟩

end Scheduler

end Turnstile
