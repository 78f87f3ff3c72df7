import DiskGauge.Bench.Harness

namespace DiskGauge.Bench
open DiskGauge.Json

namespace Inbox

def drop (inbox : Inbox) : Inbox := { inbox with dropped := true }

def accept (m : Message) (inbox : Inbox) : Inbox :=
  if inbox.dropped then inbox else { inbox with waiting := inbox.waiting ++ [m] }

def next? (inbox : Inbox) : Option Message := if inbox.dropped then none else inbox.waiting.head?

def shift (inbox : Inbox) : Inbox := if inbox.dropped then inbox else { inbox with waiting := inbox.waiting.tail }

theorem next?_shift (inbox : Inbox) : inbox.next?.toList ++ inbox.shift.waiting = inbox.waiting := by
  obtain ⟨waiting, dropped⟩ := inbox
  cases dropped with
  | true => rfl
  | false => cases waiting <;> rfl

theorem dropped_shift (inbox : Inbox) : inbox.shift.dropped = inbox.dropped := by
  unfold shift
  split <;> rfl

theorem dropped_accept (m : Message) (inbox : Inbox) : (inbox.accept m).dropped = inbox.dropped := by
  unfold accept
  split <;> rfl

theorem waiting_accept (m : Message) (inbox : Inbox) :
    (inbox.accept m).waiting = inbox.waiting ++ if inbox.dropped = false then [m] else [] := by
  obtain ⟨waiting, dropped⟩ := inbox
  cases dropped with
  | true => exact (List.append_nil _).symm
  | false => rfl

end Inbox

namespace Client

variable {c : Client} {r other : Nat} {m : Message} {inbox : Inbox} {f : Inbox → Inbox}

-- The receivers are numbered in the order in which they were set up.
def inbox? (c : Client) (r : Nat) : Option Inbox := c.inboxes.reverse[r]?

def onInbox (c : Client) (r : Nat) (f : Inbox → Inbox) : Client :=
  { c with inboxes := (c.inboxes.reverse.modify r f).reverse }

def newest (c : Client) : Nat := c.inboxes.length - 1

-- Any receiver can be dropped, and any can take its messages.
def dropNumbered (c : Client) (r : Nat) : Client := c.onInbox r .drop

def takeNumbered (c : Client) (r : Nat) : Received × Client :=
  match c.inbox? r with
  | none => (.noReceiver, c)
  | some inbox =>
    if inbox.dropped then (.noReceiver, c)
    else match inbox.waiting with
      | [] => (.empty, c)
      | m :: _ => (.message m, c.onInbox r .shift)

section
variable (published : List Message) (subscriptions : List String) (inbox : Inbox) (others : List Inbox)

theorem inbox?_newest : (⟨published, subscriptions, inbox :: others⟩ : Client).inbox? others.length = some inbox := by
  simp [inbox?]

theorem onInbox_newest (f : Inbox → Inbox) :
    (⟨published, subscriptions, inbox :: others⟩ : Client).onInbox others.length f =
      ⟨published, subscriptions, f inbox :: others⟩ := by
  have last : (others.reverse ++ [inbox]).modify others.length f = others.reverse ++ [f inbox] := by
    rw [List.modify_eq_take_cons_drop (by simp)]
    simp
  unfold onInbox
  rw [List.reverse_cons, last]
  simp

end

-- With the newest receiver this is just what the bench does.
theorem dropReceiver_numbered (c : Client) : c.dropReceiver = c.dropNumbered c.newest := by
  obtain ⟨published, subscriptions, inboxes⟩ := c
  cases inboxes with
  | nil => rfl
  | cons inbox others => exact (onInbox_newest published subscriptions inbox others .drop).symm

theorem take_numbered (c : Client) : c.take = c.takeNumbered c.newest := by
  obtain ⟨published, subscriptions, inboxes⟩ := c
  cases inboxes with
  | nil => rfl
  | cons inbox others =>
    obtain ⟨waiting, dropped⟩ := inbox
    have number : newest ⟨published, subscriptions, ⟨waiting, dropped⟩ :: others⟩ = others.length := rfl
    unfold take takeNumbered
    rw [number, inbox?_newest]
    cases dropped with
    | true => rfl
    | false =>
      cases waiting with
      | nil => rfl
      | cons m rest => simp [onInbox_newest, Inbox.shift]

theorem receive_numbered (c : Client) (m : Message) : c.receive m =
    if (c.inbox? c.newest).any (·.dropped) then .error (.text "Send error: channel closed")
    else .ok (c.onInbox c.newest (.accept m)) := by
  obtain ⟨published, subscriptions, inboxes⟩ := c
  cases inboxes with
  | nil => rfl
  | cons inbox others =>
    obtain ⟨waiting, dropped⟩ := inbox
    have number : newest ⟨published, subscriptions, ⟨waiting, dropped⟩ :: others⟩ = others.length := rfl
    rw [number, inbox?_newest, onInbox_newest]
    cases dropped <;> rfl

theorem inbox?_onInbox : (c.onInbox other f).inbox? r = if other = r then (c.inbox? r).map f else c.inbox? r := by
  unfold inbox? onInbox
  rw [List.reverse_reverse, List.getElem?_modify]
  by_cases same : other = r <;> simp [same]

theorem onInbox_same (found : c.inbox? r = some inbox) (unchanged : f inbox = inbox) : c.onInbox r f = c := by
  have each : c.inboxes.reverse.modify r f = c.inboxes.reverse := by
    apply List.ext_getElem?
    intro i
    rw [List.getElem?_modify]
    by_cases same : r = i
    · subst same
      rw [show c.inboxes.reverse[r]? = some inbox from found]
      simp [unchanged]
    · simp [same]
  unfold onInbox
  rw [each, List.reverse_reverse]

theorem onInbox_none (absent : c.inbox? r = none) : c.onInbox r f = c := by
  have beyond : c.inboxes.reverse.length ≤ r := List.getElem?_eq_none_iff.mp absent
  unfold onInbox
  rw [List.modify_eq_self beyond, List.reverse_reverse]

theorem takeNumbered_client (c : Client) (r : Nat) : (c.takeNumbered r).2 = c.onInbox r .shift := by
  unfold takeNumbered
  cases found : c.inbox? r with
  | none => exact (onInbox_none found).symm
  | some inbox =>
    obtain ⟨waiting, dropped⟩ := inbox
    cases dropped with
    | true => exact (onInbox_same found rfl).symm
    | false =>
      cases waiting with
      | nil => exact (onInbox_same found rfl).symm
      | cons m rest => rfl

theorem lt_of_inbox? (found : c.inbox? r = some inbox) : r < c.inboxes.length := by
  obtain ⟨within, _⟩ := List.getElem?_eq_some_iff.mp found
  rwa [List.length_reverse] at within

theorem inbox?_setup (within : r < c.inboxes.length) : c.setupReceiver.inbox? r = c.inbox? r := by
  unfold inbox? setupReceiver
  rw [List.reverse_cons, List.getElem?_append_left (by rwa [List.length_reverse])]

theorem inbox?_setup_newest (c : Client) : c.setupReceiver.inbox? c.inboxes.length = some ⟨[], false⟩ :=
  inbox?_newest c.published c.subscriptions ⟨[], false⟩ c.inboxes

theorem length_onInbox : (c.onInbox r f).inboxes.length = c.inboxes.length := by simp [onInbox]

end Client

inductive Call where
  | publish (m : Message)
  | subscribe (topic : String)
  | setupReceiver
  | dropReceiver (r : Nat)
  | take (r : Nat)
  | incoming (topic : String) (payload : Bytes)
  | sendUsage (node : String) (percent : Double) (free : Int)
  | clear
  | expect (topic : String) (count : Nat)
  | reset
deriving DecidableEq

namespace Call

def published? : Call → Option Message
  | .publish m => some m
  | _ => none

def subscribed? : Call → Option String
  | .subscribe topic => some topic
  | _ => none

def expected? : Call → Option Expectation
  | .expect topic count => some ⟨topic, count⟩
  | _ => none

def incoming? : Call → Option Message
  | .incoming topic payload => some ⟨topic, payload, .atLeastOnce, false⟩
  | .sendUsage node percent free =>
    some ⟨usageTopic, (usageEvent node [("/", percent, free)]).bytes, .atLeastOnce, false⟩
  | _ => none

-- After these nothing is published any more, and after the second nothing is expected.
def forgets : Call → Bool
  | .clear => true
  | .reset => true
  | _ => false

def resets : Call → Bool
  | .reset => true
  | _ => false

-- The receiver is neither replaced nor dropped.
def spares (r : Nat) (call : Call) : Bool := call ≠ .setupReceiver && call ≠ .dropReceiver r

theorem silent_of_not_spares {r : Nat} {call : Call} (spared : ¬call.spares r = true) : call.incoming? = none := by
  cases call with
  | setupReceiver => rfl
  | dropReceiver k => rfl
  | _ => exact absurd rfl spared

end Call

namespace Harness

variable {h : Harness} {call : Call} {m : Message} {r : Nat} {inbox : Inbox}

def answer (h : Harness) : Call → Except Fault Harness
  | .publish m => .ok (h.onClient (·.publish m))
  | .subscribe topic => .ok (h.onClient (·.subscribe topic))
  | .setupReceiver => .ok (h.onClient .setupReceiver)
  | .dropReceiver r => .ok (h.onClient (·.dropNumbered r))
  | .take r => .ok (h.onClient fun c => (c.takeNumbered r).2)
  | .incoming topic payload => (h.client.simulateIncoming topic payload).map fun client => { h with client }
  | .sendUsage node percent free => h.sendUsage node percent free
  | .clear => .ok (h.onClient .clear)
  | .expect topic count => .ok (h.expect topic count)
  | .reset => .ok h.reset

-- A call that fails leaves the bench as it is.
def after (h : Harness) (call : Call) : Harness :=
  match h.answer call with
  | .ok next => next
  | .error _ => h

def taken? (h : Harness) : Call → Option (Nat × Message)
  | .take r =>
    match (h.client.takeNumbered r).1 with
    | .message m => some (r, m)
    | _ => none
  | _ => none

theorem answer_incoming (comes : call.incoming? = some m) : h.answer call =
    if (h.client.inbox? h.client.newest).any (·.dropped) then .error (.text "Send error: channel closed")
    else .ok (h.onClient (·.onInbox h.client.newest (.accept m))) := by
  have received : h.answer call = (h.client.receive m).map fun client => { h with client } := by
    cases call with
    | incoming topic payload =>
      obtain rfl := Option.some.inj comes
      rfl
    | sendUsage node percent free =>
      obtain rfl := Option.some.inj comes
      change sendUsage h node percent free = _
      unfold sendUsage Client.simulateIncoming
      cases h.client.receive ⟨usageTopic, (usageEvent node [("/", percent, free)]).bytes, .atLeastOnce, false⟩ <;> rfl
    | _ => cases comes
  rw [received, Client.receive_numbered]
  split <;> rfl

theorem after_incoming (comes : call.incoming? = some m) :
    h.after call = h.onClient (·.onInbox h.client.newest (.accept m)) := by
  unfold after
  rw [answer_incoming comes]
  cases found : h.client.inbox? h.client.newest with
  | none => rfl
  | some inbox =>
    obtain ⟨waiting, dropped⟩ := inbox
    cases dropped with
    | false => rfl
    | true =>
      unfold onClient
      dsimp only
      rw [Client.onInbox_same found rfl]
      rfl

theorem after_take : h.after (.take r) = h.onClient (·.onInbox r .shift) := by
  unfold after answer onClient
  dsimp only
  rw [Client.takeNumbered_client]

theorem taken?_take : h.taken? (.take r) = ((h.client.inbox? r).bind Inbox.next?).map (r, ·) := by
  unfold taken? Client.takeNumbered
  dsimp only
  cases h.client.inbox? r with
  | none => rfl
  | some inbox =>
    obtain ⟨waiting, dropped⟩ := inbox
    cases dropped with
    | true => rfl
    | false => cases waiting <;> rfl

-- What a call does to the lists, and to the number of receivers.
structure Logs (h : Harness) (call : Call) : Prop where
  published : (h.after call).client.published =
    if call.forgets then [] else h.client.published ++ call.published?.toList
  subscriptions : (h.after call).client.subscriptions =
    if call.forgets then [] else h.client.subscriptions ++ call.subscribed?.toList
  expectations : (h.after call).expectations =
    if call.resets then [] else h.expectations ++ call.expected?.toList
  receivers : (h.after call).client.inboxes.length =
    h.client.inboxes.length + if call = .setupReceiver then 1 else 0

theorem Logs.of_onInbox {f : Inbox → Inbox} (same : h.after call = h.onClient (·.onInbox r f))
    (keeps : call.forgets = false) (quiet : call.published? = none ∧ call.subscribed? = none ∧ call.expected? = none)
    (setup : call ≠ .setupReceiver) : h.Logs call := by
  obtain ⟨published, subscribed, expected⟩ := quiet
  have remains : call.resets = false := by cases call <;> first | rfl | cases keeps
  constructor <;> rw [same]
  · simp [keeps, published, onClient, Client.onInbox]
  · simp [keeps, subscribed, onClient, Client.onInbox]
  · simp [remains, expected, onClient]
  · simp [setup, onClient, Client.length_onInbox]

theorem logs (h : Harness) (call : Call) : h.Logs call := by
  cases call with
  | dropReceiver r => exact .of_onInbox rfl rfl ⟨rfl, rfl, rfl⟩ nofun
  | take r => exact .of_onInbox after_take rfl ⟨rfl, rfl, rfl⟩ nofun
  | incoming topic payload => exact .of_onInbox (after_incoming rfl) rfl ⟨rfl, rfl, rfl⟩ nofun
  | sendUsage node percent free => exact .of_onInbox (after_incoming rfl) rfl ⟨rfl, rfl, rfl⟩ nofun
  | publish m => exact ⟨rfl, (List.append_nil _).symm, (List.append_nil _).symm, rfl⟩
  | subscribe topic => exact ⟨(List.append_nil _).symm, rfl, (List.append_nil _).symm, rfl⟩
  | expect topic count => exact ⟨(List.append_nil _).symm, (List.append_nil _).symm, rfl, rfl⟩
  | setupReceiver =>
    exact ⟨(List.append_nil _).symm, (List.append_nil _).symm, (List.append_nil _).symm, rfl⟩
  | clear => exact ⟨rfl, rfl, (List.append_nil _).symm, rfl⟩
  | reset => exact ⟨rfl, rfl, rfl, rfl⟩

end Harness

end DiskGauge.Bench
