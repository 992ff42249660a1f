import Turnstile.Proofs.Request.Protocol
import Turnstile.Proofs.Scheduler.Finalization

/-!
# The calls on the exchange of every request

Whatever the moves, and whatever program, exchange and hooks do, the calls that the journal tells
of a request obey the protocol. The record of moments that `Request.Obeys` speaks of is the run
itself: its beginnings, with the stage of the request and the calls told of it up to then.
-/

namespace Turnstile

namespace Scheduler

open Request (callsOf)

variable {σ : Type} [Exchange σ] {s : Scheduler σ} {n : Nat} {r : Request σ}

/-- At some moment of the run the request with the ordinal was at the stage, and these calls had
been made on its exchange. -/
def Was (s : Scheduler σ) (n : Nat) (moves : List (Move σ)) (stage : Stage) (calls : List Call) :
    Prop :=
  ∃ earlier r, earlier <+: moves ∧ (s.performAll earlier).requests[n]? = some r ∧
    r.stage = stage ∧ callsOf ((s.performAll earlier).history n) = calls

theorem Reachable.fits (h : s.Reachable) (hnone : s.requests[n]? = none)
    {was : Stage → List Call → Prop} (moves : List (Move σ))
    (hwas : ∀ stage calls, s.Was n moves stage calls → was stage calls)
    (hr : (s.performAll moves).requests[n]? = some r) :
    ∃ t : Transcript, t.Fits was r.stage (callsOf ((s.performAll moves).history n)) := by
  induction moves using List.reverseRecOn generalizing r with
  | nil => exact absurd (hnone.symm.trans hr) (by simp)
  | append_singleton moves m ih =>
    have hreachable := h.performAll moves
    have hchange := hreachable.change m
    rw [performAll_append] at hr ⊢
    by_cases hn : n < (s.performAll moves).requests.size
    · have hold := Array.getElem?_eq_getElem hn
      obtain ⟨t, ht⟩ := ih (fun stage calls ⟨earlier, r, hprefix, hmoment⟩ ↦
        hwas stage calls ⟨earlier, r, hprefix.trans (List.prefix_append _ _), hmoment⟩) hold
      obtain ⟨r', told, hr', hhistory, hstep⟩ := hchange.step hreachable.sound hold
      cases hr.symm.trans hr'
      have hmoment := hwas _ _ ⟨moves, _, List.prefix_append _ _, hold, rfl, rfl⟩
      obtain ⟨t', ht'⟩ := hstep.fits (hreachable.sound.wellFormed hold) hmoment ht
      refine ⟨t', ?_⟩
      have hsame : ((s.performAll moves).performAll [m]).history n =
          (s.performAll moves).history n ++ told := hhistory
      rw [hsame]
      exact ht'
    · obtain ⟨rfl, exchange, program, harrive⟩ :=
        hchange.arrived hreachable.sound (Nat.le_of_not_lt hn) hr
      obtain ⟨hnew, hhistory⟩ := hreachable.arrival exchange program
      have hsame : (s.performAll moves).performAll [m] =
          (s.performAll moves).arrive exchange program := harrive
      rw [hsame] at hr ⊢
      cases hr.symm.trans hnew
      rw [hhistory]
      exact ⟨_, Request.fits_arriving⟩

/-- After every run, the calls made on the exchange of a request obey the protocol. -/
theorem performAll_obeys {config : Config} {hooks : Hooks} (h : start? config hooks = .ok s)
    (moves : List (Move σ)) (hr : (s.performAll moves).requests[n]? = some r) :
    Request.Obeys (s.Was n moves) r.stage (callsOf ((s.performAll moves).history n)) := by
  have hnone : s.requests[n]? = none := by
    obtain ⟨-, rfl⟩ := start?_eq_ok h
    simp [new]
  obtain ⟨t, ht⟩ := (reachable_of_start? h).fits hnone moves (fun _ _ hwas ↦ hwas) hr
  exact ht.obeys

/-- A request whose program ends with a response gets the slot, the scheduler is stopped, and the
request moves on until its response is written. -/
def responded : List (Move Scripted) :=
  [.arrive (.new default) (.pure (.response (.empty 204))), .advance 0, .stop] ++
    List.replicate 5 (.advance 0)

/-- Such a request ends its exchange once when it leaves. -/
theorem performAll_obeys_responded :
    ∃ s : Scheduler Scripted, start? (.sized 1) (.plain .normal) = .ok s ∧
      ∃ r, (s.performAll (responded ++ [.advance 0])).requests[0]? = some r ∧
        (r.stage = .gone .completed ∨ r.stage = .gone .broken) ∧
        ((callsOf ((s.performAll (responded ++ [.advance 0])).history 0)).filter
          Call.isEnd).length = 1 := by
  refine ⟨.new (.sized 1) (.plain .normal), rfl, ?_⟩
  have hstart : start? (.sized 1) (.plain .normal) =
    .ok (.new (.sized 1) (.plain .normal) : Scheduler Scripted) := rfl
  have hanswered : ((Scheduler.new (.sized 1) (.plain .normal)).performAll
      responded).requests[0]?.map Request.stage = some .finishing := by cbv
  obtain ⟨r, hr, hstage⟩ := Option.map_eq_some_iff.mp hanswered
  obtain ⟨r', hr', hgone⟩ := exists_gone_of_finishing
    ((reachable_of_start? hstart).performAll responded).sound.numbered hr hstage
  have hlast := performAll_append (Scheduler.new (.sized 1) (.plain .normal)) responded [.advance 0]
  have hobeys := performAll_obeys hstart (responded ++ [.advance 0]) (by rw [hlast]; exact hr')
  refine ⟨r', by rw [hlast]; exact hr', hgone, ?_⟩
  rcases hgone with hgone | hgone <;> exact hobeys.gone hgone

end Scheduler

end Turnstile
