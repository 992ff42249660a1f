import Turnstile.Proofs.Meaning.Engine
import Turnstile.Proofs.Request.Place

/-!
# What a request comes to

Wherever a request is before it is answered, what it still comes to can be read off it: off its
program, off what it leaves its worker for, or off its reader and what has been delivered to it
(`Request.comesTo?`). The steps of a request keep it, whatever comes between: turns and
suspensions, a slot given back and asked for again, the queue, and the body in whatever pieces. So
what a request comes to in the end is what its program meant when it arrived.
-/

namespace Turnstile

open Meaning (Terms State Verdict Delivery ofWhole ofOutcome ofReaction andThen conclude)

/-- The metadata of a request stay as they are while its body is asked for and while its transport
does what it does on its own. -/
class Exchange.Steady (σ : Type) [Exchange σ] : Prop where
  /-- Starting to read the body keeps them. -/
  readBody : ∀ x : σ, Exchange.metadata (Exchange.readBody x).2.2 = Exchange.metadata x
  /-- What the transport does on its own keeps them. -/
  wake : ∀ {x x' : σ} {events : List IoEvent}, Exchange.wake x = some (events, x') →
    Exchange.metadata x' = Exchange.metadata x

/-- A program can come to this failure: it is none of the calls that end or answer it. -/
def Failure.isVerdict : Failure → Bool
  | .program _ | .noResponse | .read _ => true
  | .noProgram | .readStart _ | .responseStart _ | .write _ => false

/-- The request has not been answered and is not to be refused. -/
def Stage.isUnderWay : Stage → Bool
  | .arriving | .queued | .ready | .running | .gated | .leaving _ | .departed _ | .reading _ _
  | .returning => true
  | _ => false

/-- The note that was left, if it was one. -/
def Happening.note? : Happening → Option String
  | .note text => some text
  | _ => none

namespace Request

variable {σ : Type} {t : Terms} {r r' start : Request σ} {notes : List String}
  {input : Input} {inputs later : List Input} {told more : List Happening}

/-- The notes left. -/
def notesOf (told : List Happening) : List String := told.filterMap Happening.note?

@[simp] theorem notesOf_append (told more : List Happening) :
    notesOf (told ++ more) = notesOf told ++ notesOf more := List.filterMap_append

@[simp] theorem notesOf_map_cleaner (events : List (Cleanup.Event String)) :
    notesOf (events.map .cleaner) = [] := by
  rw [notesOf, List.filterMap_map]
  exact List.filterMap_eq_nil_iff.mpr fun _ _ ↦ rfl

/-! ## Deliveries -/

/-- The events that are reported before the body is read anew. -/
def late : List Input → List IoEvent
  | [] | .body _ :: _ => []
  | .report .read events :: later => events ++ late later
  | _ :: later => late later

/-- What is delivered for each reading of the body: the events reported when it begins and those
reported later, up to the next reading. -/
def deliveries : List Input → List Delivery
  | [] => []
  | .body events :: later => .ofEvents (events ++ late later) :: deliveries later
  | _ :: later => deliveries later

/-! ## What a request comes to -/

/-- What a program comes to that leaves its worker, unless a call on its exchange failed. -/
def ofExit? (t : Terms) (s : State) : Exit → Option (Verdict × State)
  | .respond response => some (.responds response, s)
  | .readBody limit next => some (ofWhole t (.flatMap (.suspend (.readBody limit)) next) s)
  | .fail failure => if failure.isVerdict then some (.fails failure, s) else none

/-- The events of the body that have not been looked at. -/
def unread (r : Request σ) : List IoEvent := (r.reads.map Inbox.events).getD []

/-- What a request still comes to, with the notes it has left and with what comes later. A reader
stands for a program that reads one piece, the bytes it has collected, before what comes later. -/
def comesTo? (t : Terms) (notes : List String) (later : List Input) (r : Request σ) :
    Option (Verdict × State) :=
  match r.stage with
  | .arriving | .queued | .ready | .running | .gated | .returning =>
    r.program.map fun p ↦ ofWhole t p ⟨r.dossier, deliveries later, notes⟩
  | .leaving exit | .departed exit => ofExit? t ⟨r.dossier, deliveries later, notes⟩ exit
  | .reading reader next =>
    some (ofWhole t (.flatMap (.suspend (.readBody reader.limit)) next)
      ⟨r.dossier, .ofEvents (.data reader.buffer.toList :: (r.unread ++ late later)) ::
        deliveries later, notes⟩)
  | .failing failure => ofExit? t ⟨r.dossier, deliveries later, notes⟩ (.fail failure)
  | _ => none

/-- What a request comes to depends on its stage, its program, its dossier and the events it has not
looked at, and the latter while it reads its body only. -/
theorem comesTo?_congr (hstage : r'.stage = r.stage) (hprogram : r'.program = r.program)
    (hdossier : r'.dossier = r.dossier)
    (hreads : (∃ reader next, r.stage = .reading reader next) →
      r'.unread ++ late later = r.unread ++ late (input :: later))
    (hinput : deliveries (input :: later) = deliveries later) :
    r'.comesTo? t notes later = r.comesTo? t notes (input :: later) := by
  unfold comesTo?
  rw [hstage, hprogram, hdossier, hinput]
  split
  case h_9 reader next hreading => rw [hreads ⟨reader, next, hreading⟩]
  all_goals rfl

/-! ### A turn of the program -/

@[simp] theorem notesOf_nil : notesOf [] = [] := rfl

theorem comesTo?_react (next : Value → Program) (reaction : Reaction) :
    (r.react next reaction).1.comesTo? t (notes ++ notesOf (r.react next reaction).2) later =
      some (andThen (ofReaction t ⟨r.dossier, deliveries later, notes⟩ reaction)
        fun v s ↦ ofWhole t (next v) s) := by
  have hsame (told : List Happening) (h : notesOf told = []) : notes ++ notesOf told = notes := by
    rw [h, List.append_nil]
  cases reaction with
  | resume v d =>
    rw [hsame (r.react next (.resume v d)).2 (notesOf_map_cleaner _)]
    rfl
  | enter p d =>
    rw [hsame (r.react next (.enter p d)).2 (notesOf_map_cleaner _)]
    exact congrArg some (Meaning.ofWhole_flatMap p next _)
  | fault f d =>
    rw [hsame (r.react next (.fault f d)).2 (notesOf_map_cleaner _)]
    rfl
  | respond response =>
    rw [hsame (r.react next (.respond response)).2 rfl]
    rfl
  | readBody limit =>
    rw [hsame (r.react next (.readBody limit)).2 rfl]
    exact congrArg some (Meaning.ofWhole_flatMap (.suspend (.readBody limit)) next _)
  | act action =>
    cases action with
    | note text => rfl
    | gate =>
      rw [hsame (r.react next (.act .gate)).2 rfl]
      rfl
    | look handle =>
      rw [hsame (r.react next (.act (.look handle))).2 rfl]
      rfl

variable [Exchange σ]

theorem comesTo?_turn {p : Program} (hp : r.program = some p)
    (hmetadata : r.metadata = t.metadata) :
    r.turn.1.comesTo? t (notes ++ notesOf r.turn.2) later =
      some (ofWhole t p ⟨r.dossier, deliveries later, notes⟩) := by
  rw [turn, hp, Meaning.ofWhole_run]
  dsimp only
  cases p.run with
  | finished v =>
    have hnotes : notes ++ notesOf (({ r with program := none } : Request σ).proceed
        (.finished v)).2 = notes := by cases v <;> exact List.append_nil notes
    rw [hnotes]
    cases v <;> rfl
  | faulted f =>
    have hnotes : notes ++ notesOf (({ r with program := none } : Request σ).proceed
        (.faulted f)).2 = notes := List.append_nil notes
    rw [hnotes]
    rfl
  | suspended op next =>
    rw [ofOutcome, Meaning.andThen_assoc, Meaning.ofOperation_eq, ← hmetadata]
    exact comesTo?_react next _

/-! ### Suspensions -/

/-- A request that leaves its worker comes to what it left for, and to the body as it is delivered
from now on. -/
theorem comesTo?_depart (chunkSize : Nat) {exit : Exit} (hstage : r.stage = .departed exit)
    {o : Verdict × State}
    (h : (r.depart t.maxBodyBytes chunkSize exit).1.comesTo? t
      (notes ++ notesOf (r.depart t.maxBodyBytes chunkSize exit).2) later = some o) :
    r.comesTo? t notes (r.nextInput :: later) = some o := by
  cases exit with
  | respond response =>
    rw [depart, beginResponse] at h
    split at h
    split at h
    split at h <;> cases h
  | fail failure =>
    have hinput : r.nextInput = .nothing := by rw [nextInput, hstage]
    rw [depart, notesOf_nil, List.append_nil] at h
    rw [hinput, comesTo?, hstage]
    exact h
  | readBody limit next =>
    rcases hread : Exchange.readBody r.exchange with ⟨reply, events, exchange⟩
    have hinput : r.nextInput = if reply.error?.isNone then .body events else .nothing := by
      simp only [nextInput, hstage, hread]
    simp only [depart, beginRead, hread] at h
    cases herror : reply.error? with
    | some e =>
      rw [herror] at h
      cases h
    | none =>
      have hnotes : notes ++ notesOf [.call (.readBody reply)] = notes := List.append_nil notes
      -- the reader begins with the smaller of the two limits, and taking it again changes nothing
      have hlimit : min (BodyReader.new (min limit t.maxBodyBytes)).limit t.maxBodyBytes =
          min limit t.maxBodyBytes := Nat.min_eq_left (Nat.min_le_right _ _)
      rw [herror] at h hinput
      simp only [hnotes] at h
      rw [← h, hinput, comesTo?, hstage]
      refine congrArg some ((Meaning.ofWhole_readBody limit next _ _ _ _).trans ?_)
      rw [Meaning.ofWhole_readBody, hlimit]
      simp [Delivery.ofEvents_nil_piece, unread, BodyReader.new, Inbox.empty, Inbox.deliver]

/-- A request sees its own metadata, and while it reads its body it hears its own transport and has
not collected more than it may. -/
structure Attends (t : Terms) (r : Request σ) : Prop where
  /-- The metadata are those of the request. -/
  metadata : r.stage.isUnderWay = true → r.metadata = t.metadata
  /-- The reader hears the transport and is below its limit, which is below that of the terms. -/
  reading : ∀ {reader next}, r.stage = .reading reader next →
    (∃ b, r.reads = some b ∧ b.closed = false) ∧ reader.buffer.size ≤ reader.limit ∧
      reader.limit ≤ t.maxBodyBytes

theorem comesTo?_reading (ha : r.Attends t) {reader : BodyReader} {next : Value → Program}
    (hstage : r.stage = .reading reader next) :
    r.comesTo? t notes later =
      some (andThen (Meaning.ofBody reader.limit
          (.ofEvents (.data reader.buffer.toList :: (r.unread ++ late later))),
        ⟨r.dossier, deliveries later, notes⟩) fun v s ↦ ofWhole t (next v) s) := by
  rw [comesTo?, hstage]
  dsimp only
  rw [Meaning.ofWhole_readBody, Nat.min_eq_left (ha.reading hstage).2.2]

theorem comesTo?_receive (ha : r.Attends t) {event : IoEvent}
    (hevent : r.nextEvent? = some (event, r')) {o : Verdict × State}
    (h : (r'.receive event).1.comesTo? t (notes ++ notesOf (r'.receive event).2) later = some o) :
    r.comesTo? t notes later = some o := by
  rcases nextEvent?_eq_some hevent with ⟨reader, next, box, rest, hstage, hreads, hpop, rfl⟩ |
    ⟨writer, box, rest, hstage, -, -, rfl⟩
  · obtain ⟨-, hsize, hlimit⟩ := ha.reading hstage
    rw [← Journal.length_toList] at hsize
    have hbox : box.events = event :: rest.events := by
      unfold Inbox.pop? at hpop
      split at hpop <;> cases hpop
      assumption
    have hunread : r.unread ++ late later = event :: (rest.events ++ late later) := by
      rw [unread, hreads, Option.map_some, Option.getD_some, hbox, List.cons_append]
    have hnotes : notes ++ notesOf [] = notes := List.append_nil notes
    rw [receive] at h
    simp only [hstage, hnotes] at h
    -- the bytes collected and the event looked at are two pieces before it, one piece after it
    rw [comesTo?_reading ha hstage, hunread, ← h, receiveRead]
    cases event with
    | data chunk =>
      rw [BodyReader.advance]
      by_cases hlt : reader.limit < reader.buffer.size + chunk.length
      · rw [if_pos hlt]
        rw [Meaning.ofBody_of_lt]
        · rfl
        · simp only [Delivery.ofEvents, List.length_append, Journal.length_toList]
          omega
      · rw [if_neg hlt]
        dsimp only
        rw [comesTo?]
        dsimp only
        rw [Meaning.ofWhole_readBody, Nat.min_eq_left hlimit, Journal.toList_append,
          Delivery.ofEvents_merge]
        rfl
    | allRead =>
      rw [Meaning.ofBody_allRead hsize]
      rfl
    | writable =>
      rw [Delivery.ofEvents_writable]
      rw [BodyReader.advance]
      dsimp only
      rw [comesTo?]
      dsimp only
      rw [Meaning.ofWhole_readBody, Nat.min_eq_left hlimit]
      rfl
    | error e =>
      rw [Meaning.ofBody_error hsize]
      rfl
  · rw [receive] at h
    simp only [hstage, receiveWrite] at h
    split at h <;> cases h

/-! ## Steps -/

variable {hooks : Hooks} {config : Config}

omit [Exchange σ] in
theorem closed_deliver {b : Inbox} (h : b.closed = false) (events : List IoEvent) :
    (b.deliver events).closed = false := by
  rw [Inbox.deliver_of_open h]
  exact h

theorem Attends.of_not_underWay (h : r.stage.isUnderWay = false) : Attends t r where
  metadata hunder := by rw [h] at hunder; cases hunder
  reading hreading := by rw [hreading] at h; cases h

theorem Attends.congr (ha : r.Attends t) (hunder : r.stage.isUnderWay = true)
    (hexchange : r'.exchange = r.exchange)
    (hreading : ∀ reader next, r'.stage ≠ .reading reader next) : Attends t r' where
  metadata _ := (congrArg Exchange.metadata hexchange).trans (ha.metadata hunder)
  reading h := absurd h (hreading _ _)

theorem Attends.receiveRead (ha : r.Attends t) {reader : BodyReader} {next : Value → Program}
    (hstage : r.stage = .reading reader next) {box rest : Inbox} {event : IoEvent}
    (hreads : r.reads = some box) (hpop : box.pop? = some (event, rest)) :
    Attends t (({ r with reads := some rest } : Request σ).receiveRead reader next event) := by
  have hunder : r.stage.isUnderWay = true := by rw [hstage]; rfl
  obtain ⟨⟨b, hb, hclosed⟩, hsize, hlimit⟩ := ha.reading hstage
  cases hreads.symm.trans hb
  have hrest : rest.closed = false := by
    unfold Inbox.pop? at hpop
    split at hpop <;> cases hpop
    exact hclosed
  -- where it goes on, only the reader changes
  have hgoes {reader' : BodyReader} (hsize' : reader'.buffer.size ≤ reader'.limit)
      (hlimit' : reader'.limit = reader.limit) :
      Attends t { r with reads := some rest, stage := .reading reader' next } := {
    metadata := fun _ ↦ ha.metadata hunder
    reading := fun h ↦ by
      cases h
      exact ⟨⟨rest, rfl, hrest⟩, hsize', hlimit' ▸ hlimit⟩ }
  rw [Request.receiveRead]
  cases event with
  | data chunk =>
    rw [BodyReader.advance]
    by_cases hlt : reader.limit < reader.buffer.size + chunk.length
    · rw [if_pos hlt]
      exact ha.congr hunder rfl (fun _ _ ↦ by simp [endRead])
    · rw [if_neg hlt]
      refine hgoes ?_ rfl
      rw [← Journal.length_toList, Journal.toList_append, List.length_append, Journal.length_toList]
      exact Nat.not_lt.mp hlt
  | allRead =>
    rw [BodyReader.advance]
    exact ha.congr hunder rfl (fun _ _ ↦ by simp [resume, keep])
  | writable => exact hgoes hsize rfl
  | error e => exact .of_not_underWay rfl

variable [Exchange.Steady σ]

theorem Attends.depart (ha : r.Attends t) {exit : Exit} (hstage : r.stage = .departed exit)
    (chunkSize : Nat) : Attends t (r.depart t.maxBodyBytes chunkSize exit).1 := by
  cases exit with
  | respond response =>
    rw [Request.depart, beginResponse]
    split
    split
    split <;> exact .of_not_underWay rfl
  | fail failure => exact .of_not_underWay rfl
  | readBody limit next =>
    rw [Request.depart, beginRead]
    split
    next reply events exchange hread =>
      split
      · exact .of_not_underWay rfl
      · have hsteady := Exchange.Steady.readBody r.exchange
        rw [hread] at hsteady
        exact {
          metadata := fun _ ↦ hsteady.trans (ha.metadata (by rw [hstage]; rfl))
          reading := fun h ↦ by
            cases h
            exact ⟨⟨_, rfl, closed_deliver rfl events⟩, Nat.zero_le _, Nat.min_le_right _ _⟩ }

theorem Own.attends (h : Own hooks config r input r' told)
    (hmax : config.maxBodyBytes = t.maxBodyBytes) (hw : r.WellFormed) (ha : r.Attends t) :
    r'.Attends t := by
  cases h with
  | turn hstage =>
    have hturned := turned_turn (hw.program (by rw [hstage]; rfl))
    refine ha.congr (by rw [hstage]; rfl) (congrArg (·.exchange) hturned.frame) fun reader next ↦ ?_
    exact hturned.stage (P := (· ≠ .reading reader next)) (by simp) (by simp) (by simp)
  | depart hstage => exact hmax ▸ ha.depart hstage _
  | receive hevent =>
    rcases nextEvent?_eq_some hevent with ⟨reader, next, box, rest, hstage, hreads, hpop, rfl⟩ |
      ⟨writer, box, rest, hstage, -, -, rfl⟩
    · rw [Request.receive]
      simp only [hstage]
      exact ha.receiveRead hstage hreads hpop
    · rw [Request.receive]
      simp only [hstage, receiveWrite]
      split <;> exact .of_not_underWay rfl
  | deliver events direction =>
    cases direction with
    | write => exact ⟨ha.metadata, ha.reading⟩
    | read =>
      refine ⟨ha.metadata, fun h ↦ ?_⟩
      obtain ⟨⟨b, hb, hclosed⟩, hsize⟩ := ha.reading h
      refine ⟨⟨b.deliver events, ?_, closed_deliver hclosed events⟩, hsize⟩
      exact congrArg (Option.map (·.deliver events)) hb
  | wake hwake =>
    refine ⟨fun h ↦ ?_, ha.reading⟩
    exact (Exchange.Steady.wake hwake).trans (ha.metadata h)
  | forget hwaiting => exact .of_not_underWay rfl
  | detach hwaiting =>
    refine ⟨ha.metadata, fun h ↦ ?_⟩
    rw [isWaiting, show r.stage = _ from h] at hwaiting
    cases hwaiting

theorem Step.attends (h : Step hooks config r input r' told)
    (hmax : config.maxBodyBytes = t.maxBodyBytes) (hw : r.WellFormed) (ha : r.Attends t) :
    r'.Attends t := by
  cases h with
  | stay => exact ha
  | keepRank qos => exact ha
  | rank qos h => exact ⟨ha.metadata, ha.reading⟩
  | pass h =>
    refine ha.congr ?_ rfl fun _ _ hreading ↦ ?_
    · cases hstage : r.stage <;> rw [hstage] at h <;> first | rfl | cases h
    · cases hreading
      cases hstage : r.stage <;> rw [hstage] at h <;> cases h
  | own h => exact h.attends hmax hw ha
  | fail h => exact .of_not_underWay rfl
  | finish h => exact .of_not_underWay rfl
  | refuse h => exact .of_not_underWay rfl

omit [Exchange.Steady σ] in
theorem Own.comesTo (h : Own hooks config r input r' told)
    (hmax : config.maxBodyBytes = t.maxBodyBytes) (hw : r.WellFormed) (ha : r.Attends t)
    {o : Verdict × State} (ho : r'.comesTo? t (notes ++ notesOf told) later = some o) :
    r.comesTo? t notes (input :: later) = some o := by
  cases h with
  | turn hstage =>
    obtain ⟨p, hp⟩ := Option.isSome_iff_exists.mp (hw.program (by rw [hstage]; rfl))
    rw [comesTo?_turn hp (ha.metadata (by rw [hstage]; rfl))] at ho
    rw [comesTo?, hstage, hp]
    exact ho
  | depart hstage => exact comesTo?_depart _ hstage (hmax ▸ ho)
  | receive hevent =>
    -- the event was delivered before, so nothing comes from outside
    rw [← comesTo?_receive ha hevent ho]
    exact (comesTo?_congr rfl rfl rfl (fun _ ↦ rfl) rfl).symm
  | deliver events direction =>
    rw [notesOf_nil, List.append_nil] at ho
    rw [← ho]
    symm
    cases direction with
    | write => exact comesTo?_congr rfl rfl rfl (fun _ ↦ rfl) rfl
    | read =>
      refine comesTo?_congr rfl rfl rfl (fun ⟨reader, next, hstage⟩ ↦ ?_) rfl
      -- events reported to a reader that listens are the next it looks at
      obtain ⟨⟨b, hb, hclosed⟩, -⟩ := ha.reading hstage
      simp [unread, Request.deliver, hb, Inbox.deliver_of_open hclosed, late]
  | wake hwake =>
    rw [notesOf_nil, List.append_nil] at ho
    rw [← ho]
    exact (comesTo?_congr rfl rfl rfl (fun _ ↦ rfl) rfl).symm
  | forget hwaiting => cases ho
  | detach hwaiting =>
    rw [notesOf_nil, List.append_nil] at ho
    rw [← ho]
    symm
    refine comesTo?_congr rfl rfl rfl (fun ⟨reader, next, hstage⟩ ↦ ?_) rfl
    rw [isWaiting, hstage] at hwaiting
    cases hwaiting

omit [Exchange.Steady σ] in
/-- A step keeps what a request comes to, unless somebody moves it to another class. -/
theorem Step.comesTo (h : Step hooks config r input r' told)
    (hmax : config.maxBodyBytes = t.maxBodyBytes) (hw : r.WellFormed) (ha : r.Attends t)
    (hinput : ∀ qos, input ≠ .ranking qos) {o : Verdict × State}
    (ho : r'.comesTo? t (notes ++ notesOf told) later = some o) :
    r.comesTo? t notes (input :: later) = some o := by
  cases h with
  | stay =>
    rw [notesOf_nil, List.append_nil] at ho
    rw [← ho]
    exact (comesTo?_congr rfl rfl rfl (fun _ ↦ rfl) rfl).symm
  | keepRank qos => exact absurd rfl (hinput qos)
  | rank qos h => exact absurd rfl (hinput qos)
  | @pass stage h =>
    rw [notesOf_nil, List.append_nil] at ho
    rw [← ho]
    cases hstage : r.stage <;> rw [hstage] at h <;> cases h
    all_goals first
      | cases ho
      | rw [comesTo?, comesTo?, hstage]; rfl
  | own h => exact h.comesTo hmax hw ha ho
  | fail h => cases ho
  | finish h => cases ho
  | refuse h => cases ho

/-! ## Runs -/

theorem Run.comesTo (h : Run hooks config start inputs r told)
    (hmax : config.maxBodyBytes = t.maxBodyBytes) (hw : start.WellFormed) (ha : start.Attends t)
    (hinputs : ∀ qos, .ranking qos ∉ inputs) :
    r.WellFormed ∧ r.Attends t ∧ ∀ (later : List Input) (o : Verdict × State),
      r.comesTo? t (notesOf told) later = some o →
        start.comesTo? t [] (inputs ++ later) = some o := by
  induction h with
  | start => exact ⟨hw, ha, fun later o ho ↦ ho⟩
  | @step inputs r r' input told more h s ih =>
    obtain ⟨hw', ha', hcomes⟩ := ih fun qos hmem ↦ hinputs qos (List.mem_append_left _ hmem)
    refine ⟨(s.kept hw').2, s.attends hmax hw' ha', fun later o ho ↦ ?_⟩
    rw [List.append_assoc]
    -- what the last step brings from outside is the first of what comes later for the steps before
    refine hcomes (input :: later) o (s.comesTo hmax hw' ha' (fun qos heq ↦ ?_) ?_)
    · exact hinputs qos (List.mem_append_right _ (heq ▸ List.mem_singleton_self _))
    · rw [← notesOf_append]
      exact ho

end Request

end Turnstile
