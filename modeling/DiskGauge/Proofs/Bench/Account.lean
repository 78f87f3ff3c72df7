import DiskGauge.Keyed
import DiskGauge.Proofs.Bench.Calls
import Mathlib.Algebra.GroupWithZero.Nat
import Mathlib.Data.List.DropRight

namespace DiskGauge.Bench

structure Trial where
  harness : Harness
  taken : List (Nat × Message)

namespace Trial

def new : Trial := ⟨.new, []⟩

def step (t : Trial) (call : Call) : Trial := ⟨t.harness.after call, t.taken ++ (t.harness.taken? call).toList⟩

def run (calls : List Call) : Trial := calls.foldl step new

theorem run_concat (calls : List Call) (call : Call) : run (calls ++ [call]) = (run calls).step call := by
  unfold run
  rw [List.foldl_append]
  rfl

abbrev client (t : Trial) : Client := t.harness.client

def takenBy (t : Trial) (r : Nat) : List Message := (t.taken.filter fun entry => entry.1 = r).map (·.2)

end Trial

section
variable {α : Type} {stops : Call → Bool} {kept : Call → Option α}

-- What is kept of the calls since the last one that stops.
def since (stops : Call → Bool) (kept : Call → Option α) (calls : List Call) : List α :=
  (calls.rtakeWhile fun call => !stops call).filterMap kept

theorem since_concat (calls : List Call) (call : Call) : since stops kept (calls ++ [call]) =
    if stops call then [] else since stops kept calls ++ (kept call).toList := by
  unfold since
  rw [List.rtakeWhile_concat]
  cases stops call with
  | true => rfl
  | false =>
    rw [if_pos (by rfl), if_neg Bool.false_ne_true, List.filterMap_append]
    cases found : kept call <;> simp [found]

-- A list that each call extends by what is kept of it, or empties.
theorem run_since (view : Trial → List α) (start : view .new = [])
    (step : ∀ t call, view (t.step call) = if stops call then [] else view t ++ (kept call).toList)
    (calls : List Call) : view (.run calls) = since stops kept calls := by
  induction calls using List.reverseRecOn with
  | nil => exact start
  | append_singleton calls call ih => rw [Trial.run_concat, step, since_concat, ih]

end

def published (calls : List Call) : List Message := since Call.forgets Call.published? calls
def subscribed (calls : List Call) : List String := since Call.forgets Call.subscribed? calls
def expected (calls : List Call) : List Expectation := since Call.resets Call.expected? calls
def receivers (calls : List Call) : Nat := calls.count .setupReceiver

-- What comes in for a receiver after it was set up, until it is replaced or dropped.
def delivered (r : Nat) (calls : List Call) : List Message := (calls.takeWhile (Call.spares r)).filterMap Call.incoming?

theorem delivered_concat (r : Nat) (calls : List Call) (call : Call) : delivered r (calls ++ [call]) =
    delivered r calls ++ if .setupReceiver ∉ calls ∧ .dropReceiver r ∉ calls then call.incoming?.toList else [] := by
  induction calls with
  | nil =>
    rw [if_pos ⟨List.not_mem_nil, List.not_mem_nil⟩, List.nil_append]
    by_cases spared : call.spares r = true
    · have all : [call].takeWhile (Call.spares r) = [call] := by simp [spared]
      unfold delivered
      rw [all]
      cases found : call.incoming? <;> simp [found]
    · have silent : call.incoming? = none := Call.silent_of_not_spares spared
      have nothing : [call].takeWhile (Call.spares r) = [] := by simp [spared]
      unfold delivered
      rw [nothing, silent]
      rfl
  | cons first calls ih =>
    unfold delivered at ih ⊢
    by_cases spared : first.spares r = true
    · have neither : first ≠ .setupReceiver ∧ first ≠ .dropReceiver r := by simpa [Call.spares] using spared
      have same : (.setupReceiver ∉ first :: calls ∧ .dropReceiver r ∉ first :: calls) ↔
          .setupReceiver ∉ calls ∧ .dropReceiver r ∉ calls := by
        simp [neither.1.symm, neither.2.symm]
      simp only [same]
      rw [List.cons_append, List.takeWhile_cons_of_pos spared, List.takeWhile_cons_of_pos spared, List.filterMap_cons,
        List.filterMap_cons, ih]
      cases first.incoming? <;> rfl
    -- The first call ends what the receiver gets, so nothing that comes later counts.
    · have either : ¬(.setupReceiver ∉ first :: calls ∧ .dropReceiver r ∉ first :: calls) := by
        intro neither
        apply spared
        simp only [List.mem_cons, not_or] at neither
        simp [Call.spares, Ne.symm neither.1.1, Ne.symm neither.2.1]
      rw [List.cons_append, List.takeWhile_cons_of_neg spared, List.takeWhile_cons_of_neg spared, if_neg either]
      rfl

namespace Trial

variable {t : Trial} {call : Call} {calls before after : List Call} {r : Nat} {m : Message} {inbox : Inbox}

theorem run_receivers (calls : List Call) : (run calls).client.inboxes.length = receivers calls := by
  induction calls using List.reverseRecOn with
  | nil => rfl
  | append_singleton calls call ih =>
    have logs := ((run calls).harness.logs call).receivers
    change (run calls).harness.client.inboxes.length = _ at ih
    rw [run_concat, receivers, List.count_append, List.count_singleton]
    change ((run calls).harness.after call).client.inboxes.length = _
    rw [logs, ih, receivers]
    by_cases setup : call = .setupReceiver <;> simp [setup]

theorem run_taken (calls : List Call) : ∀ entry ∈ (run calls).taken, entry.1 < receivers calls := by
  induction calls using List.reverseRecOn with
  | nil => exact fun entry member => nomatch member
  | append_singleton calls call ih =>
    have more : receivers calls ≤ receivers (calls ++ [call]) := by
      unfold receivers
      rw [List.count_append]
      exact Nat.le_add_right ..
    intro entry member
    rw [run_concat] at member
    refine Nat.lt_of_lt_of_le ?_ more
    rcases List.mem_append.mp member with earlier | now
    · exact ih entry earlier
    · cases call with
      | take r =>
        rw [Harness.taken?_take, Option.mem_toList, Option.map_eq_some_iff] at now
        obtain ⟨m, next, rfl⟩ := now
        obtain ⟨inbox, found, _⟩ := Option.bind_eq_some_iff.mp next
        rw [← run_receivers]
        exact Client.lt_of_inbox? found
      | _ => cases now

theorem takenBy_quiet (quiet : t.harness.taken? call = none) : (t.step call).takenBy r = t.takenBy r := by
  unfold takenBy step
  rw [quiet]
  simp

theorem takenBy_take (found : t.client.inbox? r = some inbox) :
    (t.step (.take r)).takenBy r = t.takenBy r ++ inbox.next?.toList := by
  have own : t.harness.taken? (.take r) = inbox.next?.map (r, ·) := by
    rw [Harness.taken?_take]
    change ((t.client.inbox? r).bind _).map _ = _
    rw [found, Option.bind_some]
  unfold takenBy step
  rw [own]
  cases inbox.next? <;> simp

theorem takenBy_other {k : Nat} (other : k ≠ r) : (t.step (.take k)).takenBy r = t.takenBy r := by
  unfold takenBy step
  rw [Harness.taken?_take]
  cases (t.harness.client.inbox? k).bind Inbox.next? <;> simp [other]

-- What a receiver has after a call, and what it then took and has left.
def Follows (t : Trial) (call : Call) (r : Nat) (inbox next : Inbox) : Prop :=
  (t.step call).client.inbox? r = some next ∧ next.dropped = (inbox.dropped || call = .dropReceiver r) ∧
    (t.step call).takenBy r ++ next.waiting = t.takenBy r ++ inbox.waiting ++
      if r = t.client.newest ∧ inbox.dropped = false then call.incoming?.toList else []

theorem follows_same (quiet : t.harness.taken? call = none) (silent : call.incoming? = none)
    (other : call ≠ .dropReceiver r) (same : (t.step call).client.inbox? r = some inbox) :
    t.Follows call r inbox inbox := by
  refine ⟨same, by simp [other], ?_⟩
  rw [takenBy_quiet quiet, silent]
  simp

theorem follows_incoming (found : t.client.inbox? r = some inbox) (comes : call.incoming? = some m) :
    ∃ next, t.Follows call r inbox next := by
  have quiet : t.harness.taken? call = none := by cases call <;> first | rfl | cases comes
  have other : call ≠ .dropReceiver r := by
    rintro rfl
    cases comes
  have posted : (t.step call).client = t.client.onInbox t.client.newest (.accept m) :=
    congrArg Harness.client (Harness.after_incoming comes)
  have own : (t.step call).client.inbox? r = if t.client.newest = r then some (inbox.accept m) else some inbox := by
    rw [posted, Client.inbox?_onInbox, found, Option.map_some]
  unfold Follows
  rw [takenBy_quiet quiet, own, comes]
  by_cases newest : t.client.newest = r
  · refine ⟨inbox.accept m, if_pos newest, by simp [other, Inbox.dropped_accept], ?_⟩
    rw [Inbox.waiting_accept, List.append_assoc]
    simp [newest]
  · refine ⟨inbox, if_neg newest, by simp [other], ?_⟩
    simp [Ne.symm newest]

theorem step_inbox (found : t.client.inbox? r = some inbox) (call : Call) : ∃ next, t.Follows call r inbox next := by
  cases call with
  | publish m => exact ⟨inbox, follows_same rfl rfl nofun found⟩
  | subscribe topic => exact ⟨inbox, follows_same rfl rfl nofun found⟩
  | clear => exact ⟨inbox, follows_same rfl rfl nofun found⟩
  | expect topic count => exact ⟨inbox, follows_same rfl rfl nofun found⟩
  | reset => exact ⟨inbox, follows_same rfl rfl nofun found⟩
  | setupReceiver =>
    have same := (Client.inbox?_setup (Client.lt_of_inbox? found)).trans found
    exact ⟨inbox, follows_same rfl rfl nofun same⟩
  | incoming topic payload => exact follows_incoming found rfl
  | sendUsage node percent free => exact follows_incoming found rfl
  | dropReceiver k =>
    have own : (t.step (.dropReceiver k)).client.inbox? r = if k = r then some inbox.drop else some inbox := by
      change (t.client.onInbox k .drop).inbox? r = _
      rw [Client.inbox?_onInbox, found, Option.map_some]
    by_cases same : k = r
    · refine ⟨inbox.drop, own.trans (if_pos same), by simp [same, Inbox.drop], ?_⟩
      rw [takenBy_quiet rfl]
      simp [Inbox.drop, Call.incoming?]
    · exact ⟨inbox, follows_same rfl rfl (by simp [same]) (own.trans (if_neg same))⟩
  | take k =>
    have own : (t.step (.take k)).client.inbox? r = if k = r then some inbox.shift else some inbox := by
      have taken : (t.step (.take k)).client = t.client.onInbox k .shift := congrArg Harness.client Harness.after_take
      rw [taken, Client.inbox?_onInbox, found, Option.map_some]
    by_cases same : k = r
    · subst same
      refine ⟨inbox.shift, own.trans (if_pos rfl), by simp [Inbox.dropped_shift], ?_⟩
      rw [takenBy_take found, List.append_assoc, Inbox.next?_shift]
      simp [Call.incoming?]
    · refine ⟨inbox, own.trans (if_neg same), by simp, ?_⟩
      rw [takenBy_other same]
      simp [Call.incoming?]

theorem newest_iff (before after : List Call) :
    receivers before = (run (before ++ .setupReceiver :: after)).client.newest ↔ .setupReceiver ∉ after := by
  have all : receivers (before ++ .setupReceiver :: after) = receivers before + 1 + receivers after := by
    unfold receivers
    rw [List.count_append, List.count_cons_self]
    omega
  unfold Client.newest
  rw [run_receivers, all, ← List.count_eq_zero]
  change _ ↔ receivers after = 0
  omega

-- A receiver gets all that comes in for it, once each and in order: it took the first of these messages and has
-- the others waiting.
theorem run_inbox (before after : List Call) :
    ∃ inbox, (run (before ++ .setupReceiver :: after)).client.inbox? (receivers before) = some inbox ∧
      inbox.dropped = decide (.dropReceiver (receivers before) ∈ after) ∧
      (run (before ++ .setupReceiver :: after)).takenBy (receivers before) ++ inbox.waiting =
        delivered (receivers before) after := by
  -- On the calls after the one that set it up, the last of them taken off: what the receiver took and what waits
  -- change together, and only their sum grows with each message.
  induction after using List.reverseRecOn with
  | nil =>
    have nothing : (run before).takenBy (receivers before) = [] := by
      have others : (run before).taken.filter (fun entry => entry.1 = receivers before) = [] := by
        rw [List.filter_eq_nil_iff]
        intro entry member same
        exact Nat.ne_of_lt (run_taken before entry member) (of_decide_eq_true same)
      unfold takenBy
      rw [others, List.map_nil]
    have own := (run before).client.inbox?_setup_newest
    rw [run_receivers] at own
    rw [run_concat, takenBy_quiet rfl, nothing]
    exact ⟨⟨[], false⟩, own, rfl, rfl⟩
  | append_singleton after call ih =>
    obtain ⟨inbox, found, dropped, received⟩ := ih
    obtain ⟨next, foundNext, droppedNext, receivedNext⟩ := step_inbox found call
    have calls : before ++ .setupReceiver :: (after ++ [call]) = before ++ .setupReceiver :: after ++ [call] := by simp
    rw [calls, run_concat]
    refine ⟨next, foundNext, ?_, ?_⟩
    · rw [droppedNext, dropped]
      simp [eq_comm]
    · rw [receivedNext, received, delivered_concat]
      simp only [newest_iff, dropped, decide_eq_false_iff_not]

end Trial

namespace Harness

variable {counts : List (String × Nat)} {messages : List Message} {topic : String} {h : Harness}

def countOn (topic : String) (messages : List Message) : Nat := (messages.filter fun m => m.topic = topic).length

-- The counts are those of the messages: one for each topic that occurs.
structure Tallied (counts : List (String × Nat)) (messages : List Message) : Prop where
  distinct : Keyed.Distinct counts
  counted : ∀ topic, counts.lookup topic =
    if countOn topic messages = 0 then none else some (countOn topic messages)
  summed : (counts.map (·.2)).sum = messages.length

theorem countTopic_put (topic : String) (counts : List (String × Nat)) :
    countTopic topic counts = Keyed.put topic ((counts.lookup topic).getD 0 + 1) counts := by
  induction counts with
  | nil => rfl
  | cons entry counts ih =>
    obtain ⟨other, count⟩ := entry
    by_cases same : other = topic
    · simp [countTopic, Keyed.put, same]
    · have different : (topic == other) = false := by simpa using Ne.symm same
      simp [countTopic, Keyed.put, same, List.lookup_cons, different, ih]

theorem sum_countTopic (topic : String) (counts : List (String × Nat)) :
    ((countTopic topic counts).map (·.2)).sum = (counts.map (·.2)).sum + 1 := by
  induction counts with
  | nil => rfl
  | cons entry counts ih =>
    obtain ⟨other, count⟩ := entry
    unfold countTopic
    split <;> simp only [List.map_cons, List.sum_cons] <;> omega

theorem countOn_concat (topic : String) (messages : List Message) (m : Message) :
    countOn topic (messages ++ [m]) = countOn topic messages + if m.topic = topic then 1 else 0 := by
  unfold countOn
  rw [List.filter_append, List.length_append]
  by_cases same : m.topic = topic <;> simp [same]

theorem Tallied.countTopic (tallied : Tallied counts messages) (m : Message) :
    Tallied (countTopic m.topic counts) (messages ++ [m]) := by
  refine ⟨?_, fun topic => ?_, ?_⟩
  · rw [countTopic_put]
    exact tallied.distinct.put
  · rw [countTopic_put, countOn_concat]
    by_cases same : m.topic = topic
    · subst same
      rw [Keyed.lookup_put_self, tallied.counted]
      by_cases unseen : countOn m.topic messages = 0 <;> simp [unseen]
    · rw [Keyed.lookup_put_other (Ne.symm same), tallied.counted]
      simp [same]
  · rw [sum_countTopic, tallied.summed, List.length_append, List.length_singleton]

theorem topicCounts_tallied (h : Harness) : Tallied h.topicCounts h.client.published := by
  unfold topicCounts
  induction h.client.published using List.reverseRecOn with
  | nil => exact ⟨List.nodup_nil, fun _ => rfl, rfl⟩
  | append_singleton messages m ih =>
    rw [List.foldl_append]
    exact ih.countTopic m

def Met (h : Harness) (e : Expectation) : Prop := countOn e.topic h.client.published = e.count

def unmet? (h : Harness) (expectations : List Expectation) : Option Expectation :=
  expectations.find? fun e => (h.client.messagesOn e.topic).length ≠ e.count

theorem unmet?_none {expectations : List Expectation} : h.unmet? expectations = none ↔ ∀ e ∈ expectations, h.Met e := by
  unfold unmet?
  rw [List.find?_eq_none]
  refine forall₂_congr fun e _ => ?_
  rw [decide_eq_true_iff, not_not]
  rfl

theorem verify_ok_iff (h : Harness) : h.verify = .ok () ↔ ∀ e ∈ h.expectations, h.Met e := by
  rw [← unmet?_none]
  unfold verify unmet?
  dsimp only
  cases h.expectations.find? fun e => (h.client.messagesOn e.topic).length ≠ e.count with
  | none => exact ⟨fun _ => rfl, fun _ => rfl⟩
  | some e => exact ⟨nofun, nofun⟩

theorem verify_unmet {before after : List Expectation} {e : Expectation} (split : h.expectations = before ++ e :: after)
    (met : ∀ d ∈ before, h.Met d) (unmet : ¬h.Met e) : h.verify =
      .error (.text ("Topic '" ++ e.topic ++ "': expected " ++ toString e.count ++ " messages, got " ++
        toString (countOn e.topic h.client.published))) := by
  have earlier := unmet?_none.mpr met
  have first : h.unmet? h.expectations = some e := by
    have seen : (h.client.messagesOn e.topic).length ≠ e.count := unmet
    unfold unmet? at earlier ⊢
    rw [split, List.find?_append, earlier, Option.none_or]
    exact List.find?_cons_of_pos (decide_eq_true seen)
  unfold unmet? at first
  unfold verify
  dsimp only
  rw [first]
  rfl

end Harness

structure Reported (calls : List Call) (t : Trial) : Prop where
  -- What came in from outside is not among it.
  listed : t.client.published = published calls
  messages : ∀ topic, t.client.messagesOn topic = (published calls).filter fun m => m.topic = topic
  tallied : Harness.Tallied t.harness.topicCounts (published calls)
  subscriptions : t.client.subscriptions = subscribed calls
  -- Each receiver, with the calls before it was set up and those after that; there are no other receivers.
  received : ∀ before after, calls = before ++ .setupReceiver :: after →
    ∃ inbox, t.client.inbox? (receivers before) = some inbox ∧
      t.takenBy (receivers before) ++ inbox.waiting = delivered (receivers before) after
  numbered : t.client.inboxes.length = receivers calls
  -- A message that comes in fails only where the newest receiver was dropped, and is lost where there never was one.
  unheard : ∀ call m, call.incoming? = some m → .setupReceiver ∉ calls → t.harness.answer call = .ok t.harness
  heard : ∀ call m before after, call.incoming? = some m → calls = before ++ .setupReceiver :: after →
    .setupReceiver ∉ after → .dropReceiver (receivers before) ∉ after → ∃ next, t.harness.answer call = .ok next
  refused : ∀ call m before after, call.incoming? = some m → calls = before ++ .setupReceiver :: after →
    .setupReceiver ∉ after → .dropReceiver (receivers before) ∈ after →
    t.harness.answer call = .error (.text "Send error: channel closed")
  verified : t.harness.verify = .ok () ↔ ∀ e ∈ expected calls, Harness.countOn e.topic (published calls) = e.count
  unmet : ∀ before e after, expected calls = before ++ e :: after →
    (∀ d ∈ before, Harness.countOn d.topic (published calls) = d.count) →
    Harness.countOn e.topic (published calls) ≠ e.count →
    t.harness.verify = .error (.text ("Topic '" ++ e.topic ++ "': expected " ++ toString e.count ++
      " messages, got " ++ toString (Harness.countOn e.topic (published calls))))

namespace Trial

variable {before after : List Call} {call : Call} {m : Message}

theorem run_published (calls : List Call) : (run calls).client.published = published calls :=
  run_since (fun t => t.client.published) rfl (fun t call => (t.harness.logs call).published) calls

theorem run_subscriptions (calls : List Call) : (run calls).client.subscriptions = subscribed calls :=
  run_since (fun t => t.client.subscriptions) rfl (fun t call => (t.harness.logs call).subscriptions) calls

theorem run_expectations (calls : List Call) : (run calls).harness.expectations = expected calls :=
  run_since (fun t => t.harness.expectations) rfl (fun t call => (t.harness.logs call).expectations) calls

theorem answer_newest (comes : call.incoming? = some m) (last : .setupReceiver ∉ after) :
    (run (before ++ .setupReceiver :: after)).harness.answer call =
      if .dropReceiver (receivers before) ∈ after then .error (.text "Send error: channel closed")
      else .ok ((run (before ++ .setupReceiver :: after)).harness.after call) := by
  obtain ⟨inbox, found, dropped, _⟩ := run_inbox before after
  rw [(newest_iff before after).mpr last] at found
  have answer := Harness.answer_incoming (h := (run (before ++ .setupReceiver :: after)).harness) comes
  have own : ((run (before ++ .setupReceiver :: after)).harness.client.inbox?
      (run (before ++ .setupReceiver :: after)).harness.client.newest).any (·.dropped) =
      decide (.dropReceiver (receivers before) ∈ after) := by
    rw [found]
    exact dropped
  rw [answer, own, Harness.after_incoming comes]
  simp

theorem answer_unheard {calls : List Call} (comes : call.incoming? = some m) (unset : .setupReceiver ∉ calls) :
    (run calls).harness.answer call = .ok (run calls).harness := by
  have empty : (run calls).harness.client.inboxes = [] := by
    apply List.eq_nil_of_length_eq_zero
    exact (run_receivers calls).trans (List.count_eq_zero.mpr unset)
  have absent : (run calls).harness.client.inbox? (run calls).harness.client.newest = none := by
    unfold Client.inbox?
    rw [empty]
    rfl
  rw [Harness.answer_incoming comes, absent, Option.any_none, if_neg Bool.false_ne_true]
  unfold Harness.onClient
  dsimp only
  rw [Client.onInbox_none absent]

theorem run_reported (calls : List Call) : Reported calls (run calls) := by
  have published := run_published calls
  have expectations := run_expectations calls
  have meets (e : Expectation) : (run calls).harness.Met e ↔
      Harness.countOn e.topic (Bench.published calls) = e.count := by
    rw [← published]
    rfl
  refine ⟨published, ?_, ?_, run_subscriptions calls, ?_, run_receivers calls, ?_, ?_, ?_, ?_, ?_⟩
  · intro topic
    unfold Client.messagesOn
    rw [published]
  · rw [← published]
    exact Harness.topicCounts_tallied _
  · rintro before after rfl
    obtain ⟨inbox, found, _, received⟩ := run_inbox before after
    exact ⟨inbox, found, received⟩
  · intro call m comes unset
    exact answer_unheard comes unset
  · rintro call m before after comes rfl last remains
    exact ⟨_, (answer_newest comes last).trans (if_neg remains)⟩
  · rintro call m before after comes rfl last dropped
    exact (answer_newest comes last).trans (if_pos dropped)
  · rw [Harness.verify_ok_iff, expectations]
    exact forall₂_congr fun e _ => meets e
  · intro before e after split met unmet
    rw [← published]
    refine Harness.verify_unmet (expectations.trans split) (fun d member => (meets d).mpr (met d member)) ?_
    exact fun equal => unmet ((meets e).mp equal)

example : (run [.setupReceiver, .incoming "a" [], .setupReceiver, .incoming "b" [], .take 0, .dropReceiver 1,
    .incoming "c" []]).client.inboxes.map (fun inbox => inbox.waiting.map (·.topic)) = [["b"], []] := by decide

end Trial

end DiskGauge.Bench
