import BusScope.Console.Answer
import BusScope.Proofs.Guid
import BusScope.Proofs.Network.Registry

/-! Questions about what is listed. An identifier that a listing shows can be asked for by that text,
under any name of the command, and the answer is the record of the entity that is listed. -/

namespace BusScope

open Text

universe u

/-- The line is a word and its argument, with blanks between them and perhaps around them. -/
def Asks (word argument line : String) : Prop :=
  ∃ front gap back, Blanks front ∧ gap ≠ [] ∧ Blanks gap ∧ Blanks back ∧
    line.toList = front ++ word.toList ++ gap ++ argument.toList ++ back

theorem CommandKind.ofWord_of_mem_aliases {k : CommandKind} {word : String}
    (h : word ∈ k.aliases) : ofWord word = k := by
  revert word
  cases k <;> decide

theorem CommandKind.solid_of_mem_aliases {k : CommandKind} {word : String}
    (h : word ∈ k.aliases) : Solid word.toList ∧ word.toList ≠ [] := by
  rw [solid_iff]
  revert word
  cases k <;> decide

theorem words_parse_of_asks {k : CommandKind} {word argument line : String} (hword : word ∈ k.aliases)
    (harg : Solid argument.toList) (hne : argument.toList ≠ []) (h : Asks word argument line) :
    (Command.parse line).words = [word, argument] := by
  obtain ⟨front, gap, back, hfront, hgap, hblanks, hback, hline⟩ := h
  obtain ⟨hsolid, hword⟩ := CommandKind.solid_of_mem_aliases hword
  obtain ⟨c, gap, rfl⟩ := List.exists_cons_of_ne_nil hgap
  obtain ⟨hc, hgap⟩ := List.forall_mem_cons.mp hblanks
  have hwords : words line.toList = [word.toList, argument.toList] := by
    rw [hline]
    simp only [List.append_assoc, List.cons_append]
    rw [words_append_of_blanks hfront, words_append_cons hsolid hword hc,
      words_of_padded harg hne ⟨gap, back, hgap, hback, (List.append_assoc _ _ _).symm⟩]
  rw [Command.parse, hwords]
  simp

theorem parse_of_asks {k : CommandKind} {word line : String} {g : Guid} (hword : word ∈ k.aliases)
    (h : Asks word g.text line) :
    (Command.parse line).kind = k ∧ (Command.parse line).argument? 1 = some g.text := by
  have hwords : (Command.parse line).words = [word, g.text] :=
    words_parse_of_asks hword g.solid_text (List.ne_nil_of_mem g.bar_mem_text) h
  rw [Command.kind, Command.argument?, hwords]
  exact ⟨CommandKind.ofWord_of_mem_aliases hword, rfl⟩

theorem isVerbose_text (g : Guid) : isVerbose g.text = false := by
  have hfree : ∀ word ∈ ["verbose", "v", "-v", "--v", "V"], '|' ∉ word.toList := by decide
  have hbar : '|' ∈ g.text.toList := g.bar_mem_text
  rw [isVerbose, Bool.eq_false_iff, ne_eq, List.contains_iff_mem]
  exact fun hmem => hfree _ hmem hbar

def EndpointKind.command : EndpointKind → CommandKind
  | .reader => .readers
  | .writer => .writers

namespace Network

open Report

variable {ο : Type u}

theorem lookup_text {α : Type} (what : String) {g : Guid} (hg : g ≠ .zero) {find? : Guid → Option α}
    {record : α} (hrecord : find? g = some record) : lookup what g.text find? = .ok record := by
  have hparse : Guid.parse g.text = .ok g :=
    Guid.parse_of_written g.written_chars (g.toList_text ▸ padded_self g.text.toList)
  have hread : (Guid.parse g.text).toOption.filter (·.isValid) = some g := by
    rw [hparse]
    exact Option.filter_eq_some_iff.mpr ⟨rfl, Guid.isValid_iff.mpr hg⟩
  rw [lookup, hread]
  dsimp only
  rw [hrecord]

theorem answer?_participants (n : Network ο) {word line : String} {g : Guid}
    (hword : word ∈ CommandKind.participants.aliases) (hline : Asks word g.text line)
    (hg : g ≠ .zero) {p : Participant} (hp : n.participants.find? g = some p) :
    n.answer? (.parse line) = some (.ok (.participant (n.participantDetail p))) := by
  obtain ⟨hcommand, hargument⟩ := parse_of_asks hword hline
  have hlookup : lookup "participant" g.text n.participant? = .ok (n.participantDetail p) := by
    refine lookup_text _ hg ?_
    rw [participant?, hp]
    rfl
  rw [answer?, hcommand, hargument]
  dsimp only
  rw [answerParticipants, isVerbose_text, if_neg Bool.false_ne_true, hlookup]
  rfl

theorem answer?_endpoints (n : Network ο) {kind : EndpointKind} {word line : String} {g : Guid}
    (hword : word ∈ kind.command.aliases) (hline : Asks word g.text line) (hg : g ≠ .zero)
    {e : Endpoint} (he : n.endpoints.find? g = some e) (hactive : e.active = true)
    (hkind : e.kind = kind) :
    n.answer? (.parse line) = some (.ok (.endpoint (n.endpointDetail e))) := by
  obtain ⟨hcommand, hargument⟩ := parse_of_asks hword hline
  have hlookup : lookup kind.text g.text (n.endpoint? kind) = .ok (n.endpointDetail e) := by
    have hfilter : (some e).filter (fun e => e.active && e.kind == kind) = some e :=
      Option.filter_eq_some_iff.mpr ⟨rfl, by simp [hactive, hkind]⟩
    refine lookup_text _ hg ?_
    rw [endpoint?, he, hfilter]
    rfl
  have hanswer : n.answer? (.parse line) = some (n.answerEndpoints kind (some g.text)) := by
    rw [answer?, hcommand, hargument]
    cases kind <;> rfl
  rw [hanswer, answerEndpoints, isVerbose_text, if_neg Bool.false_ne_true, hlookup]
  rfl

/-- Whatever is listed, apart from the zero identifier, can be asked for by the text of its
identifier, and the answer is the detail of the very entity that is registered there. -/
theorem listed_entities_answered (settings : NetworkSettings) (q : Introspection)
    (events : List NetworkEvent) :
    let n : Network ο := (empty settings q).run events
    (∀ entry ∈ n.participantEntries, entry.guid ≠ .zero →
      ∃ p, n.participants.find? entry.guid = some p ∧
        (n.participantDetail p).guid = entry.guid ∧ (n.participantDetail p).name = entry.name ∧
        ∀ word ∈ CommandKind.participants.aliases, ∀ line, Asks word entry.guid.text line →
          n.answer? (.parse line) = some (.ok (.participant (n.participantDetail p)))) ∧
    ∀ kind, ∀ entry ∈ n.endpointEntries kind, entry.guid ≠ .zero →
      ∃ e, n.endpoints.find? entry.guid = some e ∧ e.kind = kind ∧
        (n.endpointDetail e).guid = entry.guid ∧
        (n.endpointDetail e).participant = entry.participant ∧
        (n.endpointDetail e).topicName = entry.topicName ∧
        (n.endpointDetail e).typeName = entry.typeName ∧
        ∀ word ∈ kind.command.aliases, ∀ line, Asks word entry.guid.text line →
          n.answer? (.parse line) = some (.ok (.endpoint (n.endpointDetail e))) := by
  intro n
  have h : Registered n := registered_run settings q events
  constructor
  · intro entry hentry hg
    obtain ⟨p, hp, rfl⟩ := List.mem_map.mp hentry
    obtain ⟨g, hfind⟩ := SortedMap.mem_values.mp (List.mem_filter.mp hp).1
    obtain ⟨rfl, -⟩ := h.participants g p hfind
    exact ⟨p, hfind, rfl, rfl, fun word hword line hline =>
      n.answer?_participants hword hline hg hfind⟩
  · intro kind entry hentry hg
    obtain ⟨e, he, rfl⟩ := List.mem_map.mp hentry
    obtain ⟨he, hkind⟩ := List.mem_filter.mp he
    obtain ⟨g, hfind⟩ := SortedMap.mem_values.mp (List.mem_filter.mp he).1
    obtain ⟨rfl, hactive⟩ := h.endpoints g e hfind
    have hkind : e.kind = kind := beq_iff_eq.mp hkind
    exact ⟨e, hfind, hkind, rfl, rfl, rfl, rfl, fun word hword line hline =>
      n.answer?_endpoints hword hline hg hfind hactive hkind⟩

example : ((empty {} .dynamic : Network Unit).run [.participant ⟨"camera", .ofParticipant #v[1, 15, 0,
    0, 0, 0, 0, 0, 0, 0, 0, 2], true⟩]).answer?
      (.parse " p\t01.0f.00.00.00.00.00.00.00.00.00.02|0.0.1.c1 ") =
    some (.ok (.participant ⟨"camera", .ofParticipant #v[1, 15, 0, 0, 0, 0, 0, 0, 0, 0, 0, 2], [],
      []⟩)) := by rfl

end Network

end BusScope
