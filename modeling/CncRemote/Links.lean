import CncRemote.Machine
import Mathlib.Data.List.TakeDrop
import Mathlib.Logic.Function.Basic

/-!
# A server and its connections

A connection carries messages in both directions and keeps their order.  The server handles one
message at a time and answers it on the connection that it came from.  A connection that is lost
takes the answers with it, and the messages that have not arrived yet.  `coherent_of_run` accounts
for every message of a run, and `run_settle` says that a connection that stays up can always be
served until nothing is on the way.
-/

/-- A server and what is on the way to and from it. -/
structure Links (ι σ α β : Type*) where
  server : σ
  /-- The connection is not lost. -/
  up : ι → Bool
  /-- The messages that were sent to the server, oldest first. -/
  sent : ι → List α
  /-- Those that the server has not handled yet. -/
  inbound : ι → List α
  /-- The messages that the server has handled, in the order in which it did. -/
  handled : List (ι × α)
  /-- The answers that have not reached the other end yet, oldest first. -/
  outbound : ι → List β
  /-- Those that have. -/
  received : ι → List β

/-- What happens on the connections. -/
inductive LinkEvent (ι α : Type*) where
  | send (link : ι) (message : α)
  | handle (link : ι)
  | deliver (link : ι)
  /-- The connection is lost, and no more than some of the messages on it still arrive. -/
  | lose (link : ι) (arriving : Nat)

namespace Links

variable {ι σ α β : Type*} [DecidableEq ι] (service : σ → α → σ × List β)

/-- Nothing was sent yet. -/
def start (server : σ) : Links ι σ α β :=
  ⟨server, fun _ => true, fun _ => [], fun _ => [], [], fun _ => [], fun _ => []⟩

/-- One event, if it can happen. -/
def step (links : Links ι σ α β) : LinkEvent ι α → Option (Links ι σ α β)
  | .send link message =>
      if links.up link then
        some { links with
          sent := Function.update links.sent link (links.sent link ++ [message])
          inbound := Function.update links.inbound link (links.inbound link ++ [message]) }
      else
        none
  | .handle link =>
      match links.inbound link with
      | [] => none
      | message :: rest =>
          some { links with
            server := (service links.server message).1
            inbound := Function.update links.inbound link rest
            handled := links.handled ++ [(link, message)]
            outbound :=
              if links.up link then
                Function.update links.outbound link
                  (links.outbound link ++ (service links.server message).2)
              else links.outbound }
  | .deliver link =>
      match links.outbound link with
      | [] => none
      | answer :: rest =>
          some { links with
            outbound := Function.update links.outbound link rest
            received := Function.update links.received link (links.received link ++ [answer]) }
  | .lose link arriving =>
      if links.up link then
        some { links with
          up := Function.update links.up link false
          inbound := Function.update links.inbound link ((links.inbound link).take arriving)
          outbound := Function.update links.outbound link [] }
      else
        none

/-- The server and its connections, with all orders of events. -/
def machine : Machine (Links ι σ α β) (LinkEvent ι α) := ⟨step service⟩

/-- The server after it has handled messages. -/
def replay (server : σ) (handled : List (ι × α)) : σ :=
  handled.foldl (fun server entry => (service server entry.2).1) server

/-- The messages of a connection. -/
def messages (link : ι) (handled : List (ι × α)) : List α :=
  (handled.filter fun entry => entry.1 = link).map Prod.snd

/-- The answers to the messages of a connection, given by a server that handles all messages. -/
def answers (link : ι) : σ → List (ι × α) → List β
  | _, [] => []
  | server, entry :: handled =>
      (if entry.1 = link then (service server entry.2).2 else []) ++
        answers link (service server entry.2).1 handled

omit [DecidableEq ι] in
@[simp] theorem replay_append (server : σ) (front back : List (ι × α)) :
    replay service server (front ++ back) = replay service (replay service server front) back :=
  List.foldl_append

omit [DecidableEq ι] in
@[simp] theorem replay_cons (server : σ) (entry : ι × α) (handled : List (ι × α)) :
    replay service server (entry :: handled) =
      replay service (service server entry.2).1 handled := rfl

@[simp] theorem messages_append (link : ι) (front back : List (ι × α)) :
    messages link (front ++ back) = messages link front ++ messages link back := by
  simp [messages]

theorem messages_singleton (link : ι) (entry : ι × α) :
    messages link [entry] = if entry.1 = link then [entry.2] else [] := by
  by_cases same : entry.1 = link <;> simp [messages, same]

theorem answers_append (link : ι) (server : σ) (front back : List (ι × α)) :
    answers service link server (front ++ back) =
      answers service link server front ++
        answers service link (replay service server front) back := by
  induction front generalizing server with
  | nil => rfl
  | cons entry front ih =>
      rw [List.cons_append, answers, answers, ih, replay_cons, List.append_assoc]

theorem answers_singleton (link : ι) (server : σ) (entry : ι × α) :
    answers service link server [entry] =
      if entry.1 = link then (service server entry.2).2 else [] := by
  rw [answers, answers, List.append_nil]

/-- Every answer is to a message of its connection. -/
theorem mem_answers {link : ι} {server : σ} {handled : List (ι × α)} {answer : β}
    (given : answer ∈ answers service link server handled) :
    ∃ message ∈ messages link handled, ∃ server, answer ∈ (service server message).2 := by
  induction handled generalizing server with
  | nil => cases given
  | cons entry handled ih =>
      rw [← List.singleton_append, messages_append, messages_singleton]
      rcases List.mem_append.mp given with now | later
      · obtain ⟨here, now⟩ := List.mem_ite_nil_right.mp now
        exact ⟨entry.2, by simp [here], server, now⟩
      · obtain ⟨message, member, rest⟩ := ih later
        exact ⟨message, List.mem_append_right _ member, rest⟩

/-- What became of the messages of a connection: they were handled or are on the way, in order, and
so are the answers to those that were handled.  Only a connection that is lost lacks some. -/
structure Accounted (up : Bool) (sent handled inbound : List α)
    (answers received outbound : List β) : Prop where
  arrives : handled ++ inbound <+: sent
  complete : up = true → handled ++ inbound = sent
  returns : received ++ outbound <+: answers
  answered : up = true → received ++ outbound = answers

namespace Accounted

variable {up : Bool} {sent handled inbound : List α} {answers received outbound : List β}

omit [DecidableEq ι] in
theorem nil : Accounted up ([] : List α) [] [] ([] : List β) [] [] :=
  ⟨List.prefix_rfl, fun _ => rfl, List.prefix_rfl, fun _ => rfl⟩

theorem send (accounted : Accounted true sent handled inbound answers received outbound)
    (message : α) :
    Accounted true (sent ++ [message]) handled (inbound ++ [message]) answers received
      outbound := by
  have complete : handled ++ (inbound ++ [message]) = sent ++ [message] := by
    rw [← List.append_assoc, accounted.complete rfl]
  exact ⟨complete ▸ List.prefix_rfl, fun _ => complete, accounted.returns, accounted.answered⟩

theorem handle {message : α}
    (accounted : Accounted up sent handled (message :: inbound) answers received outbound)
    (reply : List β) :
    Accounted up sent (handled ++ [message]) inbound (answers ++ reply) received
      (if up then outbound ++ reply else outbound) := by
  have moved : handled ++ [message] ++ inbound = handled ++ message :: inbound := by simp
  refine ⟨moved ▸ accounted.arrives, fun isUp => moved ▸ accounted.complete isUp, ?_, ?_⟩
  · split
    · rename_i isUp
      rw [← List.append_assoc, accounted.answered isUp]
    · exact accounted.returns.trans (List.prefix_append _ _)
  · intro isUp
    rw [if_pos isUp, ← List.append_assoc, accounted.answered isUp]

theorem deliver {answer : β}
    (accounted : Accounted up sent handled inbound answers received (answer :: outbound)) :
    Accounted up sent handled inbound answers (received ++ [answer]) outbound := by
  have moved : received ++ [answer] ++ outbound = received ++ answer :: outbound := by simp
  exact ⟨accounted.arrives, accounted.complete, moved ▸ accounted.returns,
    fun isUp => moved ▸ accounted.answered isUp⟩

theorem lose (accounted : Accounted up sent handled inbound answers received outbound)
    (arriving : Nat) :
    Accounted false sent handled (inbound.take arriving) answers received [] := by
  refine ⟨?_, by simp, ?_, by simp⟩
  · exact ((List.prefix_append_right_inj handled).mpr (List.take_prefix arriving inbound)).trans
      accounted.arrives
  · rw [List.append_nil]
    exact (List.prefix_append received outbound).trans accounted.returns

omit [DecidableEq ι] in
/-- What is seen of the answers is accounted for like the answers. -/
theorem filterMap {γ : Type*}
    (accounted : Accounted up sent handled inbound answers received outbound)
    (observe : β → Option γ) :
    Accounted up sent handled inbound (answers.filterMap observe) (received.filterMap observe)
      (outbound.filterMap observe) := by
  refine ⟨accounted.arrives, accounted.complete, ?_, fun isUp => ?_⟩
  · rw [← List.filterMap_append]
    exact accounted.returns.filterMap observe
  · rw [← List.filterMap_append, accounted.answered isUp]

omit [DecidableEq ι] in
theorem filter (accounted : Accounted up sent handled inbound answers received outbound)
    (keep : β → Bool) :
    Accounted up sent handled inbound (answers.filter keep) (received.filter keep)
      (outbound.filter keep) := by
  refine ⟨accounted.arrives, accounted.complete, ?_, fun isUp => ?_⟩
  · rw [← List.filter_append]
    exact accounted.returns.filter keep
  · rw [← List.filter_append, accounted.answered isUp]

end Accounted

/-- The server is where the messages that it has handled have brought it, and all messages are
accounted for. -/
structure Coherent (server : σ) (links : Links ι σ α β) : Prop where
  replayed : links.server = replay service server links.handled
  accounted : ∀ link, Accounted (links.up link) (links.sent link) (messages link links.handled)
    (links.inbound link) (answers service link server links.handled) (links.received link)
    (links.outbound link)

variable {service}

theorem start_coherent (server : σ) : Coherent service server (start server : Links ι σ α β) :=
  ⟨rfl, fun _ => .nil⟩

section Steps

variable {server : σ} {links next : Links ι σ α β}

theorem step_send_eq_some {link : ι} {message : α} :
    step service links (.send link message) = some next ↔
      links.up link = true ∧
        next = { links with
          sent := Function.update links.sent link (links.sent link ++ [message])
          inbound := Function.update links.inbound link (links.inbound link ++ [message]) } := by
  simp only [step]
  split
  · rename_i up
    simp [up, @eq_comm _ next]
  · rename_i down
    simp [down]

theorem step_handle_eq_some {link : ι} :
    step service links (.handle link) = some next ↔
      ∃ message rest, links.inbound link = message :: rest ∧
        next = { links with
          server := (service links.server message).1
          inbound := Function.update links.inbound link rest
          handled := links.handled ++ [(link, message)]
          outbound :=
            if links.up link then
              Function.update links.outbound link
                (links.outbound link ++ (service links.server message).2)
            else links.outbound } := by
  simp only [step]
  cases links.inbound link with
  | nil => simp
  | cons message rest => simp [@eq_comm _ next]

theorem step_deliver_eq_some {link : ι} :
    step service links (.deliver link) = some next ↔
      ∃ answer rest, links.outbound link = answer :: rest ∧
        next = { links with
          outbound := Function.update links.outbound link rest
          received := Function.update links.received link (links.received link ++ [answer]) } := by
  simp only [step]
  cases links.outbound link with
  | nil => simp
  | cons answer rest => simp [@eq_comm _ next]

theorem step_lose_eq_some {link : ι} {arriving : Nat} :
    step service links (.lose link arriving) = some next ↔
      links.up link = true ∧
        next = { links with
          up := Function.update links.up link false
          inbound := Function.update links.inbound link ((links.inbound link).take arriving)
          outbound := Function.update links.outbound link [] } := by
  simp only [step]
  split
  · rename_i up
    simp [up, @eq_comm _ next]
  · rename_i down
    simp [down]

end Steps

theorem Coherent.step {server : σ} {links next : Links ι σ α β} {event : LinkEvent ι α}
    (coherent : Coherent service server links) (step : step service links event = some next) :
    Coherent service server next := by
  cases event with
  | send link message =>
      obtain ⟨up, rfl⟩ := step_send_eq_some.mp step
      refine ⟨coherent.replayed, fun other => ?_⟩
      by_cases same : other = link
      · subst same
        have accounted := coherent.accounted other
        rw [up] at accounted
        simpa [up] using accounted.send message
      · simpa [same] using coherent.accounted other
  | handle link =>
      obtain ⟨message, rest, waiting, rfl⟩ := step_handle_eq_some.mp step
      refine ⟨?_, fun other => ?_⟩
      · rw [replay_append, ← coherent.replayed]
        rfl
      · simp only [messages_append, messages_singleton, answers_append, answers_singleton,
          ← coherent.replayed]
        by_cases same : other = link
        · subst same
          have accounted := coherent.accounted other
          rw [waiting] at accounted
          have handled := accounted.handle (service links.server message).2
          cases up : links.up other <;> simpa [up] using handled
        · have apart : link ≠ other := fun equal => same equal.symm
          cases up : links.up link <;> simpa [same, apart] using coherent.accounted other
  | deliver link =>
      obtain ⟨answer, rest, waiting, rfl⟩ := step_deliver_eq_some.mp step
      refine ⟨coherent.replayed, fun other => ?_⟩
      by_cases same : other = link
      · subst same
        have accounted := coherent.accounted other
        rw [waiting] at accounted
        simpa using accounted.deliver
      · simpa [same] using coherent.accounted other
  | lose link arriving =>
      obtain ⟨up, rfl⟩ := step_lose_eq_some.mp step
      refine ⟨coherent.replayed, fun other => ?_⟩
      by_cases same : other = link
      · subst same
        simpa using (coherent.accounted other).lose arriving
      · simpa [same] using coherent.accounted other

theorem Coherent.run {server : σ} {links final : Links ι σ α β} {events : List (LinkEvent ι α)}
    (coherent : Coherent service server links)
    (execution : (machine service).run links events = some final) :
    Coherent service server final :=
  @Machine.invariant_of_run _ _ (machine service) (Coherent service server)
    (fun coherent step => coherent.step step) _ _ _ coherent execution

/-- The messages of every run are accounted for. -/
theorem coherent_of_run {server : σ} {links : Links ι σ α β} {events : List (LinkEvent ι α)}
    (execution : (machine service).run (start server) events = some links) :
    Coherent service server links :=
  (start_coherent server).run execution

variable (service) in
/-- The server handles all messages that are on the way on a connection. -/
theorem run_handle_all (links : Links ι σ α β) (link : ι) :
    ∃ final, (machine service).run links
        (List.replicate (links.inbound link).length (.handle link)) = some final ∧
      final.inbound link = [] ∧ final.up = links.up ∧ final.sent = links.sent := by
  induction waiting : links.inbound link generalizing links with
  | nil => exact ⟨links, rfl, waiting, rfl, rfl⟩
  | cons message rest ih =>
      obtain ⟨next, step, inbound, up, sent⟩ : ∃ next,
          step service links (.handle link) = some next ∧ next.inbound link = rest ∧
            next.up = links.up ∧ next.sent = links.sent :=
        ⟨_, step_handle_eq_some.mpr ⟨message, rest, waiting, rfl⟩, Function.update_self .., rfl,
          rfl⟩
      obtain ⟨final, execution, empty, sameUp, sameSent⟩ := ih next inbound
      exact ⟨final, Machine.run_cons_eq_some.mpr ⟨next, step, execution⟩, empty, sameUp.trans up,
        sameSent.trans sent⟩

variable (service) in
/-- All answers that are on the way on a connection arrive. -/
theorem run_deliver_all (links : Links ι σ α β) (link : ι) :
    ∃ final, (machine service).run links
        (List.replicate (links.outbound link).length (.deliver link)) = some final ∧
      final.outbound link = [] ∧ final.inbound = links.inbound ∧ final.up = links.up ∧
        final.sent = links.sent := by
  induction waiting : links.outbound link generalizing links with
  | nil => exact ⟨links, rfl, waiting, rfl, rfl, rfl⟩
  | cons answer rest ih =>
      obtain ⟨next, step, outbound, inbound, up, sent⟩ : ∃ next,
          step service links (.deliver link) = some next ∧ next.outbound link = rest ∧
            next.inbound = links.inbound ∧ next.up = links.up ∧ next.sent = links.sent :=
        ⟨_, step_deliver_eq_some.mpr ⟨answer, rest, waiting, rfl⟩, Function.update_self .., rfl,
          rfl, rfl⟩
      obtain ⟨final, execution, empty, sameIn, sameUp, sameSent⟩ := ih next outbound
      exact ⟨final, Machine.run_cons_eq_some.mpr ⟨next, step, execution⟩, empty,
        sameIn.trans inbound, sameUp.trans up, sameSent.trans sent⟩

/-- The events of a run that only serve what is on the way. -/
def Serves (link : ι) (event : LinkEvent ι α) : Prop :=
  event = .handle link ∨ event = .deliver link

/-- A connection that is up can be served until the server has handled all that was sent on it and
all answers have arrived. -/
theorem run_settle {server : σ} {links : Links ι σ α β} {link : ι}
    (coherent : Coherent service server links) (up : links.up link = true) :
    ∃ events final, (∀ event ∈ events, Serves link event) ∧
      (machine service).run links events = some final ∧ final.sent = links.sent ∧
        messages link final.handled = links.sent link ∧
          final.received link = answers service link server final.handled := by
  obtain ⟨middle, first, noneIn, sameUp, sameSent⟩ := run_handle_all service links link
  obtain ⟨final, second, noneOut, sameIn, sameUp', sameSent'⟩ :=
    run_deliver_all service middle link
  have execution : (machine service).run links
      (List.replicate (links.inbound link).length (.handle link) ++
        List.replicate (middle.outbound link).length (.deliver link)) = some final := by
    rw [Machine.run_append, first, Option.bind_some, second]
  refine ⟨_, final, ?_, execution, ?_⟩
  · intro event member
    rcases List.mem_append.mp member with member | member
    · exact .inl (List.eq_of_mem_replicate member)
    · exact .inr (List.eq_of_mem_replicate member)
  · have accounted := (coherent.run execution).accounted link
    have isUp : final.up link = true := by rw [sameUp', sameUp, up]
    have complete := accounted.complete isUp
    have answered := accounted.answered isUp
    rw [sameIn, noneIn, List.append_nil, sameSent', sameSent] at complete
    rw [noneOut, List.append_nil] at answered
    exact ⟨sameSent'.trans sameSent, complete, answered⟩

section Image

variable {τ γ : Type*} {image : σ → τ} {abstract : τ → α → τ × List γ}

omit [DecidableEq ι] in
/-- A server that shows another one shows it after any messages. -/
theorem replay_image
    (shows : ∀ server message,
      image (service server message).1 = (abstract (image server) message).1)
    (server : σ) (handled : List (ι × α)) :
    image (replay service server handled) = replay abstract (image server) handled := by
  induction handled generalizing server with
  | nil => rfl
  | cons entry handled ih => rw [replay_cons, replay_cons, ih, shows]

/-- If what is seen of the answers to every message on a connection is what the other server answers
to it, then so it is for all of them. -/
theorem answers_image
    (shows : ∀ server message,
      image (service server message).1 = (abstract (image server) message).1)
    {observe : β → Option γ} {link : ι} {handled : List (ι × α)}
    (tells : ∀ message ∈ messages link handled, ∀ server,
      (service server message).2.filterMap observe = (abstract (image server) message).2)
    (server : σ) :
    (answers service link server handled).filterMap observe =
      answers abstract link (image server) handled := by
  induction handled generalizing server with
  | nil => rfl
  | cons entry handled ih =>
      have rest := ih (fun message member => tells message (by
        rw [← List.singleton_append, messages_append]
        exact List.mem_append_right _ member))
      rw [answers, answers, List.filterMap_append, rest, shows]
      congr 1
      by_cases same : entry.1 = link
      · rw [if_pos same, if_pos same]
        refine tells entry.2 ?_ server
        rw [← List.singleton_append, messages_append, messages_singleton, if_pos same]
        exact List.mem_append_left _ (List.mem_singleton_self _)
      · rw [if_neg same, if_neg same, List.filterMap_nil]

end Image

end Links
