import DiskGauge.Probe.File
import DiskGauge.Proofs.Text.Utf8
import DiskGauge.Proofs.Toml.Document

namespace DiskGauge.Probe
open Toml

def textRow (name value : String) : Row := ⟨name, writeText value.toList, .text value⟩

def numberRow (name : String) (value : Nat) : Row := ⟨name, Nat.toDigits 10 value, .integer value⟩

def listRow (name : String) (values : List String) : Row :=
  ⟨name, writeList (values.map String.toList), .array (values.map .text)⟩

section
variable {name : String} (named : BareName name)
include named

theorem textRow_sound (value : String) : (textRow name value).Sound := by
  have spells := spells_text value.toList
  rw [String.ofList_toList] at spells
  exact ⟨named, spells⟩

theorem numberRow_sound {value : Nat} (fits : value < twoTo 63) : (numberRow name value).Sound :=
  ⟨named, spells_integer value fits⟩

theorem listRow_sound (values : List String) : (listRow name values).Sound := by
  have spells := spells_list (values.map String.toList)
  have items : (values.map String.toList).map (fun text => Item.text (String.ofList text)) = values.map .text := by
    simp
  rw [items] at spells
  exact ⟨named, spells⟩

end

def Broker.rows (b : Broker) : List Row :=
  [textRow "broker_host" b.host, numberRow "broker_port" b.port] ++
    (b.clientId.map (textRow "client_id")).toList ++
    [numberRow "keep_alive_secs" b.keepAlive, textRow "topic" b.topic]

def Config.taskRows (c : Config) : List Row :=
  [textRow "node_id" c.node, numberRow "interval_secs" c.interval, listRow "mounts" c.mounts]

variable {c : Config} {b : Broker} {place : Place}

theorem Broker.rows_sound (port : b.port < twoTo 16) (keepAlive : b.keepAlive < twoTo 16) :
    ∀ row ∈ b.rows, row.Sound := by
  have small : twoTo 16 < twoTo 63 := twoTo_lt (by decide)
  intro row member
  simp only [rows, List.mem_append, List.mem_cons, List.not_mem_nil, or_false, Option.mem_toList,
    Option.map_eq_some_iff] at member
  rcases member with ((rfl | rfl) | ⟨client, _, rfl⟩) | rfl | rfl
  · exact textRow_sound ⟨by decide, by decide⟩ _
  · exact numberRow_sound ⟨by decide, by decide⟩ (Nat.lt_trans port small)
  · exact textRow_sound ⟨by decide, by decide⟩ _
  · exact numberRow_sound ⟨by decide, by decide⟩ (Nat.lt_trans keepAlive small)
  · exact textRow_sound ⟨by decide, by decide⟩ _

theorem Config.taskRows_sound (interval : c.interval < twoTo 63) : ∀ row ∈ c.taskRows, row.Sound := by
  intro row member
  simp only [taskRows, List.mem_cons, List.not_mem_nil, or_false] at member
  rcases member with rfl | rfl | rfl
  · exact textRow_sound ⟨by decide, by decide⟩ _
  · exact numberRow_sound ⟨by decide, by decide⟩ interval
  · exact listRow_sound ⟨by decide, by decide⟩ _

theorem Broker.rows_distinct (b : Broker) : (b.rows.map Row.name).Nodup := by
  cases client : b.clientId <;> simp [rows, client, textRow, numberRow]

theorem Config.taskRows_distinct (c : Config) : (c.taskRows.map Row.name).Nodup := by
  simp [taskRows, textRow, numberRow, listRow]

theorem text_textRow (name value : String) : (textRow name value).text = Config.line name (writeText value.toList) := rfl

theorem text_numberRow (name : String) (value : Nat) :
    (numberRow name value).text = Config.line name (Nat.toDigits 10 value) := rfl

theorem text_listRow (name : String) (values : List String) :
    (listRow name values).text = Config.line name (writeList (values.map String.toList)) := rfl

theorem Broker.rows_text (b : Broker) : b.rows.flatMap Row.text = Config.brokerLines b := by
  cases client : b.clientId <;>
    simp only [rows, Config.brokerLines, client, Option.map_none, Option.map_some, Option.toList_none,
      Option.toList_some, List.append_nil, List.cons_append, List.nil_append, List.flatMap_cons, List.flatMap_nil,
      List.append_assoc, text_textRow, text_numberRow]

theorem Config.taskRows_text (c : Config) : c.taskRows.flatMap Row.text = c.taskLines := by
  simp only [taskRows, taskLines, List.flatMap_cons, List.flatMap_nil, List.append_nil, List.append_assoc,
    text_textRow, text_numberRow, text_listRow]

theorem Config.text_tables (c : Config) : c.text =
    String.ofList (tableText "mqtt" c.broker.rows ++ '\n' :: tableText "probe" c.taskRows) := by
  have first : "[mqtt]\n".toList = '[' :: ("mqtt".toList ++ [']', '\n']) := by decide
  have second : "\n[probe]\n".toList = '\n' :: '[' :: ("probe".toList ++ [']', '\n']) := by decide
  unfold text tableText
  simp only [Broker.rows_text, taskRows_text, first, second, List.append_assoc, List.cons_append, List.nil_append]

-- The bound is left open, since nothing has to compute it.
theorem inside_bound {α : Type} {n bound : Nat} (fits : n < bound) (value other : α) :
    (if 0 ≤ (n : Int) && (n : Int) < bound then value else other) = value := by
  refine if_pos ?_
  rw [Bool.and_eq_true, decide_eq_true_eq, decide_eq_true_eq]
  omega

theorem asNatural_natural {bits n : Nat} (fits : n < twoTo bits) : asNatural bits (.integer n) = .ok n := by
  simp only [asNatural, inside_bound fits, Int.toNat_natCast]

variable {ε α β : Type}

theorem ok_bind (value : α) (next : α → Except ε β) : (Except.ok value >>= next) = next value := rfl

theorem pure_ok (value : α) : (pure value : Except ε α) = .ok value := rfl

theorem asTexts_texts (values : List String) : asTexts (.array (values.map .text)) = .ok values := by
  have each : (values.map Item.text).mapM asText = .ok values := by
    induction values with
    | nil => rfl
    | cons value values ih =>
      rw [List.map_cons, List.mapM_cons, ih]
      rfl
  exact each

-- Each row puts its value in the place of its name, and what is put there comes out again.
theorem Broker.ofItem_rows (port : b.port < twoTo 16) (keepAlive : b.keepAlive < twoTo 16) :
    Broker.ofItem (tableItem b.rows) = .ok b := by
  obtain ⟨host, number, client, seconds, topic⟩ := b
  have reads : asNatural 16 (.integer number) = .ok number := asNatural_natural port
  have lasts : asNatural 16 (.integer seconds) = .ok seconds := asNatural_natural keepAlive
  cases client <;>
    simp [Broker.ofItem, tableItem, members?, rows, foldMembers, textRow, numberRow, BrokerDraft.member, asText,
      reads, lasts, BrokerDraft.finish, required, ok_bind, pure_ok]

theorem Task.ofItem_rows (interval : c.interval < twoTo 64) :
    Task.ofItem (tableItem c.taskRows) = .ok ⟨c.node, c.interval, c.mounts⟩ := by
  have reads : asNatural 64 (.integer c.interval) = .ok c.interval := asNatural_natural interval
  simp [Task.ofItem, tableItem, members?, Config.taskRows, foldMembers, textRow, numberRow, listRow, TaskDraft.member,
    asText, reads, asTexts_texts, TaskDraft.finish, required, ok_bind, pure_ok]

namespace Config

theorem ofMembers_rows (port : c.broker.port < twoTo 16) (keepAlive : c.broker.keepAlive < twoTo 16)
    (interval : c.interval < twoTo 64) :
    ofMembers [("mqtt", tableItem c.broker.rows), ("probe", tableItem c.taskRows)] = .ok c := by
  have broker := Broker.ofItem_rows port keepAlive
  have task := Task.ofItem_rows interval
  simp [ofMembers, foldMembers, ConfigDraft.member, broker, task, required, ok_bind, pure_ok]

theorem document_text (port : c.broker.port < twoTo 16) (keepAlive : c.broker.keepAlive < twoTo 16)
    (interval : c.interval < twoTo 63) :
    readDocument c.text = some [("mqtt", tableItem c.broker.rows), ("probe", tableItem c.taskRows)] := by
  rw [text_tables]
  exact readDocument_tables ⟨⟨by decide, by decide⟩, by decide, by decide⟩ (by decide)
    ⟨Broker.rows_sound port keepAlive, taskRows_sound interval⟩ ⟨Broker.rows_distinct _, taskRows_distinct _⟩

theorem ofText_members {text : String} {members : Members} (document : readDocument text = some members)
    (config : ofMembers members = .ok c) : ofText text = .ok c := by
  unfold ofText
  rw [document]
  dsimp only
  rw [config]

theorem load_ofString {text : String} (config : ofText text = .ok c) : load (.file (Utf8.ofString text)) = .ok c := by
  have bytes : Utf8.string? (Utf8.ofString text) = some text := by
    rw [Utf8.ofString, Utf8.string?_encode, String.ofList_toList]
  have read : (Place.file (Utf8.ofString text)).readText = .ok text := by
    unfold Place.readText Place.read
    dsimp only
    rw [bytes]
  unfold load
  rw [read]
  exact config

theorem load_text (port : c.broker.port < twoTo 16) (keepAlive : c.broker.keepAlive < twoTo 16)
    (interval : c.interval < twoTo 63) : load (.file (Utf8.ofString c.text)) = .ok c := by
  have wide := Nat.lt_trans interval (twoTo_lt (by decide : 63 < 64))
  have document := document_text port keepAlive interval
  exact load_ofString (ofText_members document (ofMembers_rows port keepAlive wide))

-- Saving told step by step, with what is found at the place afterwards: the text is made before the file is touched.
def saveAt (c : Config) (place : Place) : Except SaveFault Unit × Place :=
  match place.makeParent with
  | .error fault => (.error (.io fault), place)
  | .ok () =>
    match c.text? with
    | .error fault => (.error fault, place)
    | .ok text =>
      match place.openEmpty with
      | .error fault => (.error (.io fault), place)
      | .ok opened => (.ok (), opened.append (Utf8.ofString text))

theorem save_saveAt (c : Config) (place : Place) : c.save place =
    match c.saveAt place with
    | (.ok _, after) => .ok after
    | (.error fault, _) => .error fault := by
  unfold save saveAt Place.write
  cases place.makeParent with
  | error fault => rfl
  | ok =>
    cases c.text? with
    | error fault => rfl
    | ok text =>
      dsimp only
      cases place.openEmpty <;> rfl

theorem text?_short (interval : c.interval < twoTo 63) : c.text? = .ok c.text := if_pos interval

theorem text?_long (long : twoTo 63 ≤ c.interval) : c.text? = .error .intervalTooLong := if_neg (Nat.not_lt.mpr long)

-- A file is written where one stands or where nothing stands yet.
theorem save_text {text : String} (written : c.text? = .ok text) (after : Place) :
    c.save place = .ok after ↔
      (place = .absent ∨ ∃ old, place = .file old) ∧ after = .file (Utf8.ofString text) := by
  cases place with
  | file old => simp [save, written, Place.makeParent, Place.write, Place.openEmpty, Place.append, eq_comm]
  | absent => simp [save, written, Place.makeParent, Place.write, Place.openEmpty, Place.append, eq_comm]
  | directory => simp [save, written, Place.makeParent, Place.write, Place.openEmpty]
  | blocked => simp [save, Place.makeParent]
  | unnamed reason => cases reason <;> simp [save, written, Place.makeParent, Place.write, Place.openEmpty]

theorem saveAt_refused {refusal : SaveFault} (refuses : c.text? = .error refusal) : ∃ fault,
    c.saveAt place = (.error fault, place) ∧ (place.makeParent = .ok () → fault = refusal) := by
  cases made : place.makeParent with
  | error fault =>
    refine ⟨.io fault, ?_, fun other => nomatch other⟩
    unfold saveAt
    rw [made]
  | ok =>
    refine ⟨refusal, ?_, fun _ => rfl⟩
    unfold saveAt
    rw [made, refuses]

-- What is kept of a configuration that is saved, and what of the place when it cannot be.
structure Survives (c : Config) (place : Place) : Prop where
  saved : (∃ after, c.save place = .ok after) ↔
    c.interval < twoTo 63 ∧ (place = .absent ∨ ∃ old, place = .file old)
  loaded : ∀ after, c.save place = .ok after → load after = .ok c
  -- Where the directory can be made, it is the interval that is complained about.
  refused : twoTo 63 ≤ c.interval → ∃ fault, c.save place = .error fault ∧
    c.saveAt place = (.error fault, place) ∧ (place.makeParent = .ok () → fault = .intervalTooLong)

theorem save_long (long : twoTo 63 ≤ c.interval) : ∃ fault, c.save place = .error fault ∧
    c.saveAt place = (.error fault, place) ∧ (place.makeParent = .ok () → fault = .intervalTooLong) := by
  obtain ⟨fault, left, complaint⟩ := saveAt_refused (text?_long long)
  exact ⟨fault, by rw [save_saveAt, left], left, complaint⟩

theorem save_ok (after : Place) : c.save place = .ok after ↔ c.interval < twoTo 63 ∧
    (place = .absent ∨ ∃ old, place = .file old) ∧ after = .file (Utf8.ofString c.text) := by
  rcases Nat.lt_or_ge c.interval (twoTo 63) with interval | long
  · rw [save_text (text?_short interval)]
    exact ⟨fun saved => ⟨interval, saved⟩, fun saved => saved.2⟩
  · obtain ⟨fault, error, -⟩ := save_long long
    rw [error]
    exact ⟨(fun saved => nomatch saved), fun saved => absurd saved.1 (Nat.not_lt.mpr long)⟩

theorem save_survives (c : Config) (place : Place) (port : c.broker.port < twoTo 16)
    (keepAlive : c.broker.keepAlive < twoTo 16) : Survives c place where
  saved := by
    constructor
    · rintro ⟨after, saved⟩
      obtain ⟨interval, there, -⟩ := (save_ok after).mp saved
      exact ⟨interval, there⟩
    · rintro ⟨interval, there⟩
      exact ⟨_, (save_ok _).mpr ⟨interval, there, rfl⟩⟩
  loaded after saved := by
    obtain ⟨interval, -, rfl⟩ := (save_ok after).mp saved
    exact load_text port keepAlive interval
  refused := save_long

theorem knots_survive :
    let c : Config := ⟨⟨"a\"b'c", 65535, some "\\\n\"\"\"'''", 0, "\x07"⟩, "", twoTo 63 - 1, ["\t", "'''\"\"\"\n"]⟩
    (c.broker.port < twoTo 16 ∧ c.broker.keepAlive < twoTo 16) ∧
      Survives c (.file [0x41]) ∧ Survives { c with interval := twoTo 63 } (.file [0x41]) := by
  intro c
  have port : c.broker.port < twoTo 16 := by decide
  have keepAlive : c.broker.keepAlive < twoTo 16 := by decide
  exact ⟨⟨port, keepAlive⟩, save_survives _ _ port keepAlive, save_survives _ _ port keepAlive⟩

end Config

end DiskGauge.Probe
