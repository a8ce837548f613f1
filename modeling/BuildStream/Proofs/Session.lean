/-
# Requests of one builder

Requests that come from one builder share its listeners, and the sources of cancellation it was
given.  They have nothing else in common: what a request shows after any commands is what it shows
if there had been no other request, nothing but the settings that were in force when it was built,
and no cancellation but that of its own source (`shows_alone`).

The proof goes by way of a machine for a single request, `RequestView.take`.  A request in a
session does what this machine does with the commands that concern it (`view?_after`,
`answersTo_log`); and what a builder has gathered for a source is the same without the commands
that made no difference to it (`restrict_after`).

One thing a request gets from the others in spite of all: its listeners may remember having been
called for them.  So each command comes with what was called before it (`Moment`), and two runs are
compared that differ in this.  What the listeners do about it is theirs; as long as it is not
closing the stream or breaking its reports, all the rest is the same (`after_quiet`), and if it is
nothing, everything is (`after_alike`).
-/
import BuildStream.Proofs.Stream.Draining
import BuildStream.Session

namespace BuildStream

/-! ## 1. What listeners remember -/

/-- Listeners that do the same after some calls as after others, whatever they see then. -/
def Listeners.Alike (ls : Listeners) (past past' : List Call) : Prop :=
  ∀ kind, ∀ l ∈ ls.ofKind kind, ∀ more sight,
    l.react (past ++ more) sight = l.react (past' ++ more) sight

namespace Stream

variable {ls : Listeners} {past past' : List Call}

theorem alike_append (h : ls.Alike past past') (more : List Call) :
    ls.Alike (past ++ more) (past' ++ more) := fun kind l hl rest sight => by
  rw [List.append_assoc, List.append_assoc, h kind l hl]

theorem tell_alike (d : Diagnostics) (notice : Notice) (place : Nat) {ls : List Listener}
    (h : ∀ l ∈ ls, ∀ more sight, l.react (past ++ more) sight = l.react (past' ++ more) sight)
    (s : Stream) : tell d notice place ls past s = tell d notice place ls past' s := by
  induction ls generalizing place past past' s with
  | nil => rfl
  | cons l ls ih =>
    have hcall : s.call notice place l past = s.call notice place l past' := by
      have hreact := h l List.mem_cons_self [] (s.sight notice)
      rw [List.append_nil, List.append_nil] at hreact
      rw [call, hreact, call]
    let c := s.call notice place l past'
    have hrest (after : Stream) : tell d notice (place + 1) ls (past ++ [c]) after =
        tell d notice (place + 1) ls (past' ++ [c]) after :=
      ih (place + 1) (fun l' hl' more sight => by
        rw [List.append_assoc, List.append_assoc, h l' (List.mem_cons_of_mem _ hl')]) after
    simp only [c] at hrest
    simp only [tell, hcall, hrest]

theorem feed_alike (h : ls.Alike past past') (s : Stream) (e : Event) :
    s.feed ls past e = s.feed ls past' e := by
  cases ha : s.accept e with
  | error v => rw [feed_of_error ha, feed_of_error ha]
  | ok accepted =>
    obtain ⟨t, notice⟩ := accepted
    simp only [feed, ha]
    exact tell_alike _ _ _ (h notice.kind) t

theorem feedUnbroken_alike (h : ls.Alike past past') (s : Stream) (events : List Event) :
    feedUnbroken ls past s events = feedUnbroken ls past' s events := by
  induction events generalizing past past' s with
  | nil => rfl
  | cons e events ih => simp only [feedUnbroken, feed_alike h s e, ih (alike_append h _)]

/-- Listeners that do not care what they remember make no difference to a drain. -/
theorem drain_alike (h : ls.Alike past past') (s : Stream) (events : List Event) :
    s.drain ls past events = s.drain ls past' events := by
  rw [drain, feedUnbroken_alike h, drain]

/-- Listeners that neither close the stream nor break a report make no difference to a drain beyond
what they do themselves. -/
theorem drain_quiet (hc : ls.NeverClose) (hb : ls.NeverBreak) (past past' : List Call) (s : Stream)
    (events : List Event) :
    (s.drain ls past events).1 = (s.drain ls past' events).1 ∧
      (s.drain ls past events).2.report? = (s.drain ls past' events).2.report? ∧
      (s.drain ls past events).2.outcomes.map Outcome.shown =
        (s.drain ls past' events).2.outcomes.map Outcome.shown := by
  have hall (past : List Call) : ∀ o ∈ (feedAll ls past s events).2, o.broken = false :=
    fun o ho => broken_feedAll hb ho
  obtain ⟨hs, hv⟩ := feedAll_sameNames hc hc past past' s events
  rw [drain_of_unbroken (hall past), drain_of_unbroken (hall past')]
  refine ⟨congrArg close hs, congrArg some ?_,
    feedAll_shown (fun _ => rfl) hc hc (hall past) (hall past')⟩
  rw [DeliveryReport.ofOutcomes_eq, hv, ← DeliveryReport.ofOutcomes_eq]

end Stream

/-- What can be seen of a reply beside what the listeners do. -/
def Reply.shown : Reply → Option DeliveryReport ×
    List (Option StreamViolation × List (String × Nat × Sight))
  | fed outcome => (none, [outcome.shown])
  | delivered delivery => (delivery.report?, delivery.outcomes.map (·.shown))
  | _ => (none, [])

/-! ## 2. Commands and what they gave -/

/-- A command that is given, and the files that there are then. -/
structure Given where
  files : Files
  command : Command

namespace Command

/-- The request that a command is addressed to. -/
def addressee? : Command → Option Nat
  | event i _ => some i
  | deliver i _ => some i
  | close i => some i
  | _ => none

/-- The same for another request. -/
def readdress (j : Nat) : Command → Command
  | event _ e => event j e
  | deliver _ events => deliver j events
  | close _ => close j
  | c => c

/-- Whether a command is of concern to request `i`, which watches a source of cancellation. -/
def concerns (source : Option CancelSource) (i : Nat) : Command → Bool
  | cancel c => source == some c
  | c => c.addressee? == some i

theorem concerns_of_addressee {source : Option CancelSource} {i j : Nat} {c : Command}
    (h : c.addressee? = some j) : c.concerns source i = (j == i) := by
  cases c with
  | event | deliver | close => exact Option.some.inj h ▸ rfl
  | set | build | cancel => exact nomatch h

theorem concerns_readdress {source : Option CancelSource} {i : Nat} {c : Command} (j : Nat)
    (h : c.concerns source i = true) : (c.readdress j).concerns source j = true := by
  cases c with
  | event | deliver | close => exact beq_self_eq_true _
  | cancel => exact h
  | set | build => exact nomatch h

end Command

/-- The same for another request. -/
def Given.readdress (j : Nat) (g : Given) : Given := { g with command := g.command.readdress j }

/-- A command that was given, and what it gave. -/
structure LogEntry extends Given where
  reply : Reply

/-- Whether a command made a difference to what a builder gathers for a request that watches a
source: a setting that was not refused, or a cancellation of the source. -/
def LogEntry.prepares (source : Option CancelSource) (entry : LogEntry) : Bool :=
  match entry.command, entry.reply with
  | .set _, .refused _ => false
  | .set _, _ => true
  | .cancel c, _ => source == some c
  | _, _ => false

/-- What the commands addressed to a request gave. -/
def answersTo (i : Nat) (log : List LogEntry) : List Reply :=
  (log.filter fun entry => entry.command.addressee? == some i).map (·.reply)

theorem answersTo_cons (i : Nat) (entry : LogEntry) (log : List LogEntry) :
    answersTo i (entry :: log) =
      if entry.command.addressee? = some i then entry.reply :: answersTo i log
      else answersTo i log := by
  by_cases h : entry.command.addressee? = some i <;> simp [answersTo, h]

namespace Session

/-- The session after commands, between which files may come and go. -/
def after (s : Session) : List Given → Session
  | [] => s
  | g :: gs => (s.step g.files g.command).1.after gs

/-- Commands with what each of them gave. -/
def log (s : Session) : List Given → List LogEntry
  | [] => []
  | g :: gs => ⟨g, (s.step g.files g.command).2⟩ :: (s.step g.files g.command).1.log gs

/-- A run is the case in which the files stay as they are. -/
theorem run_eq (fs : Files) (s : Session) (cs : List Command) :
    s.run fs cs =
      (s.after (cs.map (Given.mk fs)), (s.log (cs.map (Given.mk fs))).map (·.reply)) := by
  induction cs generalizing s with
  | nil => rfl
  | cons c cs ih => simp only [run, ih, List.map_cons, after, log]

theorem after_append (s : Session) (gs hs : List Given) :
    s.after (gs ++ hs) = (s.after gs).after hs := by
  induction gs generalizing s with
  | nil => rfl
  | cons g gs ih => exact ih _

end Session

/-! ## 3. One request by itself -/

/-- What a request shows: its parameters and listeners, the state of its stream, and the poll of
its source. -/
structure RequestView extends OpenRequest where
  isCancelled : Bool

namespace RequestView

/-- What a command does to a request that it concerns, given the calls of listeners so far. -/
def take (v : RequestView) (past : List Call) : Command → RequestView × Reply
  | .event _ e =>
    let (stream, outcome) := v.stream.feed v.request.listeners past e
    ({ v with stream }, .fed outcome)
  | .deliver _ events =>
    let (stream, delivery) := v.stream.drain v.request.listeners past events
    ({ v with stream }, .delivered delivery)
  | .close _ => ({ v with stream := v.stream.close }, .done)
  | .cancel source =>
    ({ v with isCancelled := v.request.cancellation == some source || v.isCancelled }, .done)
  | .set _ => (v, .done)
  | .build => (v, .done)

end RequestView

/-- A command, and the calls of listeners before it. -/
structure Moment where
  past : List Call
  command : Command

/-- The same command, for a request of another number, with other calls before it. -/
def Moment.Same (j : Nat) (m m' : Moment) : Prop := m'.command = m.command.readdress j

namespace RequestView

/-- The request after commands. -/
def after (v : RequestView) : List Moment → RequestView
  | [] => v
  | m :: ms => (v.take m.past m.command).1.after ms

/-- What the commands gave that were addressed to the request. -/
def answers (v : RequestView) : List Moment → List Reply
  | [] => []
  | m :: ms =>
    if m.command.addressee?.isSome then
      (v.take m.past m.command).2 :: (v.take m.past m.command).1.answers ms
    else (v.take m.past m.command).1.answers ms

/-- No command changes the parameters. -/
theorem take_request (v : RequestView) (past : List Call) (c : Command) :
    (v.take past c).1.request = v.request := by
  cases c <;> rfl

theorem after_request (v : RequestView) (ms : List Moment) : (v.after ms).request = v.request := by
  induction ms generalizing v with
  | nil => rfl
  | cons m ms ih => exact (ih _).trans (v.take_request m.past m.command)

/-- The number of a request makes no difference to it. -/
theorem take_readdress (v : RequestView) (past : List Call) (j : Nat) (c : Command) :
    v.take past (c.readdress j) = v.take past c := by
  cases c <;> rfl

theorem isSome_addressee?_readdress (j : Nat) (c : Command) :
    (c.readdress j).addressee?.isSome = c.addressee?.isSome := by
  cases c <;> rfl

/-! ### Two runs -/

variable {j : Nat} {ms ms' : List Moment}

/-- The poll depends on the commands alone. -/
theorem after_poll (h : List.Forall₂ (Moment.Same j) ms ms') {v v' : RequestView}
    (hr : v.request = v'.request) (hp : v.isCancelled = v'.isCancelled) :
    (v.after ms).isCancelled = (v'.after ms').isCancelled := by
  induction h generalizing v v' with
  | nil => exact hp
  | @cons m m' ms ms' hm _ ih =>
    rw [after, after]
    refine ih (by rw [take_request, take_request, hr]) ?_
    rw [hm, take_readdress]
    cases m.command <;> simp only [take, hr, hp]

/-- What listeners remember that neither close the stream nor break a report makes no difference to
a command beyond what they do themselves. -/
theorem take_quiet (v : RequestView) (hc : v.request.listeners.NeverClose)
    (hb : v.request.listeners.NeverBreak) (past past' : List Call) (c : Command) :
    (v.take past c).1 = (v.take past' c).1 ∧
      (v.take past c).2.shown = (v.take past' c).2.shown := by
  cases c with
  | event i e =>
    have hs := (Stream.feed_sameNames hc hc past past' v.stream e).1
    have hshown := Stream.shown_sameNames (fun _ => rfl) hc hc
      (Stream.broken_feed hb v.stream past e) (Stream.broken_feed hb v.stream past' e)
    simp only [take, Reply.shown, hs, hshown, and_self]
  | deliver i events =>
    obtain ⟨hs, hreport, hshown⟩ := Stream.drain_quiet hc hb past past' v.stream events
    simp only [take, Reply.shown, hs, hreport, hshown, and_self]
  | set | build | close | cancel => exact ⟨rfl, rfl⟩

theorem after_quiet (h : List.Forall₂ (Moment.Same j) ms ms') (v : RequestView)
    (hc : v.request.listeners.NeverClose) (hb : v.request.listeners.NeverBreak) :
    v.after ms = v.after ms' ∧ (v.answers ms).map (·.shown) = (v.answers ms').map (·.shown) := by
  induction h generalizing v with
  | nil => exact ⟨rfl, rfl⟩
  | @cons m m' ms ms' hm _ ih =>
    obtain ⟨hnext, hshown⟩ := v.take_quiet hc hb m.past m'.past m.command
    obtain ⟨hafter, hanswers⟩ := ih (v.take m.past m.command).1
      (by rwa [take_request]) (by rwa [take_request])
    rw [after, after, answers, answers, hm, take_readdress, isSome_addressee?_readdress, ← hnext]
    refine ⟨hafter, ?_⟩
    split
    · rw [List.map_cons, List.map_cons, hanswers, hshown]
    · exact hanswers

/-- What listeners remember makes no difference at all if they do not care for it. -/
theorem take_alike (v : RequestView) {past past' : List Call}
    (h : v.request.listeners.Alike past past') (c : Command) :
    v.take past c = v.take past' c := by
  cases c with
  | event i e => simp only [take, Stream.feed_alike h]
  | deliver i events => simp only [take, Stream.drain_alike h]
  | set | build | close | cancel => rfl

theorem after_alike (h : List.Forall₂ (Moment.Same j) ms ms') (v : RequestView)
    (halike : List.Forall₂ v.request.listeners.Alike (ms.map (·.past)) (ms'.map (·.past))) :
    v.after ms = v.after ms' ∧ v.answers ms = v.answers ms' := by
  induction h generalizing v with
  | nil => exact ⟨rfl, rfl⟩
  | @cons m m' ms ms' hm _ ih =>
    obtain ⟨hfirst, hrest⟩ := List.forall₂_cons.mp halike
    have hnext : v.take m.past m.command = v.take m'.past m.command :=
      v.take_alike hfirst m.command
    obtain ⟨hafter, hanswers⟩ := ih (v.take m.past m.command).1 (by rwa [take_request])
    rw [after, after, answers, answers, hm, take_readdress, isSome_addressee?_readdress, ← hnext]
    exact ⟨hafter, by rw [hanswers]⟩

end RequestView

namespace Session

/-- What request `i` shows. -/
def view? (s : Session) (i : Nat) : Option RequestView :=
  s.requests[i]?.map fun r => ⟨r, r.request.isCancelled s.cancelled⟩

/-! ## 4. A request among others -/

variable {s : Session} {i : Nat} {v : RequestView} {source : Option CancelSource}

theorem exists_of_view? (hv : s.view? i = some v) :
    s.requests[i]? = some v.toOpenRequest ∧
      v.isCancelled = v.request.isCancelled s.cancelled := by
  obtain ⟨r, hr, rfl⟩ := Option.map_eq_some_iff.mp hv
  exact ⟨hr, rfl⟩

/-- A request does not show what its listeners remember. -/
theorem view?_past (s : Session) (past : List Call) (i : Nat) :
    ({ s with past } : Session).view? i = s.view? i := rfl

theorem view?_setStream_self (hv : s.view? i = some v) (stream : Stream) :
    (s.setStream i stream).view? i = some { v with stream } := by
  obtain ⟨hr, hc⟩ := exists_of_view? hv
  simp [view?, setStream, hr, ← hc]

theorem view?_setStream_of_ne {j : Nat} (h : j ≠ i) (stream : Stream) :
    (s.setStream j stream).view? i = s.view? i := by
  simp [view?, setStream, h]

/-- A cancellation is seen by those who watch the source. -/
theorem isCancelled_cons (r : Request) (c : CancelSource) (cancelled : List CancelSource) :
    r.isCancelled (c :: cancelled) = (r.cancellation == some c || r.isCancelled cancelled) := by
  rw [Bool.eq_iff_iff]
  cases hr : r.cancellation <;> simp [Request.isCancelled, hr]

/-- **A command addressed to a request** does to it what it would do to the request by itself. -/
theorem view?_step_self (fs : Files) {c : Command} (hv : s.view? i = some v)
    (hc : c.addressee? = some i) :
    (s.step fs c).1.view? i = some (v.take s.past c).1 ∧ (s.step fs c).2 = (v.take s.past c).2 := by
  have hr := (exists_of_view? hv).1
  cases c with
  | event j _ | deliver j _ | close j =>
    obtain rfl := Option.some.inj hc
    simp only [step, hr, RequestView.take, view?_past, view?_setStream_self hv, and_self]
  | set | build | cancel => exact nomatch hc

/-- A command that is addressed to another request leaves a request alone. -/
theorem view?_step_of_ne (fs : Files) {c : Command} {j : Nat} (hc : c.addressee? = some j)
    (h : j ≠ i) : (s.step fs c).1.view? i = s.view? i := by
  cases c with
  | event k _ | deliver k _ | close k =>
    obtain rfl := Option.some.inj hc
    cases hr : s.requests[k]? <;> simp only [step, hr, view?_past, view?_setStream_of_ne h]
  | set | build | cancel => exact nomatch hc

theorem view?_step_set (fs : Files) (setting : Request.Setting) :
    (s.step fs (.set setting)).1.view? i = s.view? i := by
  simp only [step]
  cases s.builder.set fs setting <;> rfl

theorem view?_step_build (fs : Files) (hv : s.view? i = some v) :
    (s.step fs .build).1.view? i = some v := by
  have hr := (exists_of_view? hv).1
  have hi : i < s.requests.length := (List.getElem?_eq_some_iff.mp hr).1
  rw [← hv]
  simp only [view?, step, List.getElem?_append_left hi]

theorem view?_step_cancel (fs : Files) (c : CancelSource) (hv : s.view? i = some v) :
    (s.step fs (.cancel c)).1.view? i = some (v.take s.past (.cancel c)).1 := by
  obtain ⟨hr, hc⟩ := exists_of_view? hv
  simp only [view?, step, hr, Option.map_some, isCancelled_cons, RequestView.take, hc]

/-- **A step, seen by one request**: it takes the commands that concern it, and nothing else
happens to it. -/
theorem view?_step (fs : Files) (c : Command) (hv : s.view? i = some v) :
    (s.step fs c).1.view? i =
      some (if c.concerns v.request.cancellation i then (v.take s.past c).1 else v) := by
  cases hc : c.addressee? with
  | some j =>
    rw [Command.concerns_of_addressee hc]
    by_cases h : j = i
    · subst h
      rw [if_pos (beq_self_eq_true j), (view?_step_self fs hv hc).1]
    · rw [if_neg (by simpa using h), view?_step_of_ne fs hc h, hv]
  | none =>
    cases c with
    | set setting => exact (view?_step_set fs setting).trans hv
    | build => exact view?_step_build fs hv
    | cancel c =>
      -- A source that the request does not watch adds nothing to its poll.
      rw [view?_step_cancel fs c hv, Command.concerns, RequestView.take]
      cases v.request.cancellation == some c <;> rfl
    | event | deliver | close => exact nomatch hc

/-- The commands of concern to request `i`, each with the calls of listeners before it. -/
def moments (source : Option CancelSource) (i : Nat) (s : Session) : List Given → List Moment
  | [] => []
  | g :: gs =>
    let rest := moments source i (s.step g.files g.command).1 gs
    if g.command.concerns source i then ⟨s.past, g.command⟩ :: rest else rest

theorem commands_moments (source : Option CancelSource) (i : Nat) (s : Session) (gs : List Given) :
    (moments source i s gs).map (·.command) =
      (gs.map (·.command)).filter (·.concerns source i) := by
  induction gs generalizing s with
  | nil => rfl
  | cons g gs ih =>
    rw [moments, List.map_cons, List.filter_cons, ← ih]
    split <;> rfl

/-- **A run, seen by one request**: what it shows is what it would show by itself after the
commands that concern it. -/
theorem view?_after (hv : s.view? i = some v) (gs : List Given) :
    (s.after gs).view? i = some (v.after (moments v.request.cancellation i s gs)) := by
  induction gs generalizing s v with
  | nil => exact hv
  | cons g gs ih =>
    have hstep := view?_step g.files g.command hv
    rw [after, moments]
    by_cases h : g.command.concerns v.request.cancellation i
    · rw [if_pos h] at hstep ⊢
      rw [ih hstep, RequestView.take_request, RequestView.after]
    · rw [if_neg h] at hstep ⊢
      exact ih hstep

/-- What is answered to a request is what it would be answered by itself. -/
theorem answersTo_log (hv : s.view? i = some v) (gs : List Given) :
    answersTo i (s.log gs) = v.answers (moments v.request.cancellation i s gs) := by
  induction gs generalizing s v with
  | nil => rfl
  | cons g gs ih =>
    have hstep := view?_step g.files g.command hv
    rw [log, answersTo_cons, moments]
    by_cases h : g.command.concerns v.request.cancellation i
    · rw [if_pos h] at hstep ⊢
      rw [ih hstep, RequestView.take_request, RequestView.answers]
      cases hc : g.command.addressee? with
      | some j =>
        have hj : j = i := by simpa [Command.concerns_of_addressee hc] using h
        subst hj
        simp [(view?_step_self g.files hv hc).2]
      | none => simp
    · rw [if_neg h] at hstep ⊢
      have hne : g.command.addressee? ≠ some i := fun hc =>
        h ((Command.concerns_of_addressee hc).trans (beq_self_eq_true i))
      rw [ih hstep, if_neg hne]

/-! ## 5. What a builder gathers -/

/-- What there is before a request is built, as far as a source is concerned: what the builder has
gathered, and whether the source was cancelled. -/
def restrict (source : Option CancelSource) (s : Session) : Session where
  builder := s.builder
  cancelled := s.cancelled.filter fun c => source == some c

/-- **A step before a request is built** makes no difference to it, unless it is a setting that is
not refused, or a cancellation of its source; then it makes the same difference with nothing else
there. -/
theorem restrict_step (source : Option CancelSource) (s : Session) (g : Given) :
    (s.step g.files g.command).1.restrict source =
      if LogEntry.prepares source ⟨g, (s.step g.files g.command).2⟩ then
        ((s.restrict source).step g.files g.command).1
      else s.restrict source := by
  obtain ⟨fs, c⟩ := g
  cases c with
  | set setting =>
    have hb : (s.restrict source).builder = s.builder := rfl
    cases h : s.builder.set fs setting with
    | ok builder =>
      simp only [step, hb, h]
      rfl
    | error e =>
      simp only [step, h]
      rfl
  | build => rfl
  | event i _ | deliver i _ | close i =>
    cases h : s.requests[i]? with
    | none =>
      simp only [step, h]
      rfl
    | some r =>
      simp only [step, h]
      rfl
  | cancel c =>
    rw [LogEntry.prepares]
    by_cases h : source == some c
    · simp only [step, restrict, List.filter_cons, if_pos h]
    · simp only [step, restrict, List.filter_cons, if_neg h]

/-- **A run before a request is built** comes to the same as the part of it that made a difference
to what is built. -/
theorem restrict_after (source : Option CancelSource) (s : Session) (gs : List Given) :
    (s.after gs).restrict source =
      (s.restrict source).after (((s.log gs).filter (·.prepares source)).map (·.toGiven)) := by
  induction gs generalizing s with
  | nil => rfl
  | cons g gs ih =>
    have hstep := restrict_step source s g
    rw [after, log, ih]
    by_cases h : LogEntry.prepares source ⟨g, (s.step g.files g.command).2⟩
    · rw [if_pos h] at hstep
      rw [List.filter_cons_of_pos h, List.map_cons, after, hstep]
    · rw [if_neg h] at hstep
      rw [List.filter_cons_of_neg h, hstep]

/-- What a request shows that is built now. -/
def opening (s : Session) : RequestView where
  request := s.builder
  isCancelled := s.builder.isCancelled s.cancelled

theorem view?_build (fs : Files) (s : Session) :
    (s.step fs .build).1.view? s.requests.length = some s.opening := by
  simp [view?, step, opening]

theorem opening_restrict (s : Session) :
    (s.restrict s.builder.cancellation).opening = s.opening := by
  have hb : (s.restrict s.builder.cancellation).builder = s.builder := rfl
  have hc : s.builder.isCancelled (s.restrict s.builder.cancellation).cancelled =
      s.builder.isCancelled s.cancelled := by
    unfold Request.isCancelled
    cases h : s.builder.cancellation <;> simp [restrict]
  rw [opening, opening, hb, hc]

/-! ## 6. A request alone -/

/-- The commands of concern to a request are the same for it as another request, if no others are
given. -/
theorem same_moments (source : Option CancelSource) (i j : Nat) (s s' : Session)
    (gs : List Given) :
    List.Forall₂ (Moment.Same j) (moments source i s gs)
      (moments source j s' ((gs.filter (·.command.concerns source i)).map (·.readdress j))) := by
  have hcommands : (moments source j s' ((gs.filter (·.command.concerns source i)).map
      (·.readdress j))).map (·.command) =
        (moments source i s gs).map fun m => m.command.readdress j := by
    have hown : ((gs.filter (·.command.concerns source i)).map fun g => g.command.readdress j).filter
        (·.concerns source j) =
          (gs.filter (·.command.concerns source i)).map fun g => g.command.readdress j := by
      refine List.filter_eq_self.mpr fun c hc => ?_
      obtain ⟨g, hg, rfl⟩ := List.mem_map.mp hc
      exact Command.concerns_readdress j (List.mem_filter.mp hg).2
    have hmap := congrArg (List.map (Command.readdress j)) (commands_moments source i s gs)
    rw [List.map_map, List.filter_map, List.map_map] at hmap
    rw [commands_moments, List.map_map]
    exact hown.trans hmap.symm
  rw [← List.forall₂_eq_eq_eq, List.forall₂_map_left_iff, List.forall₂_map_right_iff] at hcommands
  exact hcommands.flip

/-- What a listener does may depend on other requests: one that fails at its second call, whatever
it is called for, is reported for the second of two requests, which it would not be alone. -/
example :
    let counting : Listener := ⟨"counting", fun past _ =>
      { result := if past.length = 1 then .fails (.error (.single "again")) else .returns }⟩
    let fed (i : Nat) (cs : List Command) :=
      (answersTo i (({} : Session).log (cs.map (Given.mk Files.empty)))).map fun reply =>
        match reply with
        | .fed o => o.reports.length
        | _ => 0
    let listener : Command := .set (.listener .build counting)
    fed 1 [listener, .build, .build, .event 0 Stream.Faulty.start, .event 1 Stream.Faulty.start] = [1] ∧
      fed 0 [listener, .build, .event 0 Stream.Faulty.start] = [0] := by decide

end Session

end BuildStream
