import Chiptune.Proofs.SlotExits

/-!
# The streams of a song that leaves its slots

What is encoded of a channel of a split song is, stay by stay, the code of the rows of a slot before
its exit, and nothing after a stay that ends the song.
-/

namespace Chiptune

/-- The items that are related to some joined lists can be told apart by these lists. -/
lemma forall₂_groups {α β γ : Type} {R : β → γ → Prop} {f : α → List β} {xs : List α}
    {items : List γ} (h : List.Forall₂ R (xs.flatMap f) items) : ∃ groups : List (List γ),
      groups.flatten = items ∧
        List.Forall₂ (fun x group => List.Forall₂ R (f x) group) xs groups := by
  induction xs generalizing items with
  | nil =>
    obtain rfl := List.forall₂_nil_left_iff.mp h
    exact ⟨[], rfl, .nil⟩
  | cons x xs ih =>
    rw [List.flatMap_cons] at h
    obtain ⟨groups, hgroups, hall⟩ := ih (List.forall₂_drop_append _ _ _ h.flip).flip
    refine ⟨items.take (f x).length :: groups, ?_,
      .cons (List.forall₂_take_append _ _ _ h.flip).flip hall⟩
    rw [List.flatten_cons, hgroups, List.take_append_drop]

/-- The blocks are the code of some rows, which follow each other. -/
def CodeOf (voicing : Voicing) (rows : List Row) (blocks : List (List Command)) : Prop :=
  ∃ parts : List (List Row), parts.flatten = rows ∧
    List.Forall₂ (fun part block => ∃ short active after,
      encodeRows voicing short active part = .ok (block, after)) parts blocks

/-- The stream consists of the code of the rows of some stays in slots of a song. -/
def Song.Stays (song : Song) (voicing : Voicing) (takesSpeed : Bool) (channel : Channel)
    (stays : List Visit) (stream : ChannelStream) : Prop :=
  ∃ groups : List (List (List Command)), groups.flatten = stream.slots ∧
    List.Forall₂ (fun stay group => CodeOf voicing (song.rows voicing.kernel
      (song.effects.getD stay.slot []) takesSpeed (channel.slots.getD stay.slot none) stay.rows)
      group) stays groups

section Streams

variable {song pieces : Song} {encoding : Encoding} {effects : List SlotEffects} {channel : Channel}
  {takesSpeed : Bool} {size factor : Nat}

/-- Each block of a stream is the code of the rows of a visit. -/
lemma visitCommands_blocks {visits : List Visit} {active after : Option InstrumentId}
    {blocks : List (List Command)}
    (h : song.visitCommands encoding effects channel takesSpeed active visits =
      .ok (blocks, after)) :
    List.Forall₂ (fun visit block => visit.slot < channel.slots.length ∧ ∃ short active after,
      encodeRows ⟨encoding.kernel, channel.voice, encoding.index⟩ short active
        (song.rows encoding.kernel (effects.getD visit.slot []) takesSpeed
          (channel.slots.getD visit.slot none) visit.rows) = .ok (block, after)) visits blocks := by
  induction visits generalizing active blocks with
  | nil =>
    obtain ⟨rfl, rfl⟩ := Prod.mk.injEq .. ▸ Except.ok.inj h
    exact .nil
  | cons visit rest ih =>
    rw [Song.visitCommands] at h
    cases hslot : channel.slots[visit.slot]? with
    | none => simp [hslot] at h
    | some content =>
      simp only [hslot] at h
      obtain ⟨⟨commands, named⟩, hcommands, h⟩ := (bind_eq_ok_iff _ _ _).mp h
      obtain ⟨⟨later, last⟩, hlater, h⟩ := (bind_eq_ok_iff _ _ _).mp h
      obtain ⟨rfl, rfl⟩ := Prod.mk.injEq .. ▸ Except.ok.inj h
      obtain ⟨short, hrows⟩ : ∃ short, encodeRows ⟨encoding.kernel, channel.voice, encoding.index⟩
        short active (song.rows encoding.kernel (effects.getD visit.slot []) takesSpeed content
          visit.rows) = .ok (commands, named) := ⟨_, hcommands⟩
      rw [← getD_of_getElem? hslot] at hrows
      exact .cons ⟨(List.getElem?_eq_some_iff.mp hslot).1, short, active, named, hrows⟩ (ih hlater)

lemma exitOf_rows_le (size count : Nat) (skip jump : Nat → Bool) :
    (exitOf size skip jump (count * size)).rows ≤ count * size := by
  induction count generalizing skip jump with
  | zero =>
    rw [Nat.zero_mul]
    exact Nat.le_refl 0
  | succ count ih =>
    have hwhole : (count + 1) * size = size + count * size := by
      rw [Nat.add_mul, Nat.one_mul, Nat.add_comm]
    have hlt : ∀ {p : Nat → Bool} {row : Nat}, (List.range size).find? p = some row →
        row ≤ size + count * size := by
      intro p row hrow
      have := List.mem_range.mp (List.mem_of_find?_eq_some hrow)
      omega
    rw [hwhole, exitOf_add]
    cases hskip : (List.range size).find? skip with
    | some row => exact hlt hskip
    | none =>
      cases hjump : (List.range size).find? jump with
      | some row => exact hlt hjump
      | none => exact Nat.add_le_add_left (ih _ _) size

lemma mem_stays (h : Cut song pieces size factor) {stay : Visit}
    (hs : stay ∈ song.staysBy (song.exit size)) :
    stay.slot < song.length ∧ stay.rows ≤ song.patternLength := by
  obtain ⟨slot, hslot, rfl⟩ := List.mem_map.mp hs
  refine ⟨List.mem_range.mp (List.mem_of_mem_take hslot), ?_⟩
  rw [Song.exit, h.whole]
  exact exitOf_rows_le size factor _ _

/-- The blocks of the pieces of a slot are the code of the rows of the slot. -/
lemma codeOf_pieces (h : Cut song pieces size factor) {slots : List (Option Nat)}
    (hcut : ChannelCut song pieces size factor channel.slots slots) {voicing : Voicing}
    {stay : Visit} (hslot : stay.slot < song.length) (hrows : stay.rows ≤ song.patternLength)
    {group : List (List Command)}
    (hall : List.Forall₂ (fun visit block => visit.slot < slots.length ∧ ∃ short active after,
      encodeRows voicing short active (pieces.rows voicing.kernel
        (pieces.effects.getD visit.slot []) takesSpeed (slots.getD visit.slot none) visit.rows) =
          .ok (block, after))
      (stay.pieces size factor) group) :
    CodeOf voicing (song.rows voicing.kernel (song.effects.getD stay.slot []) takesSpeed
      (channel.slots.getD stay.slot none) stay.rows) group := by
  have hin : stay.slot < channel.slots.length := by
    obtain ⟨piece, others, hpieces⟩ :=
      List.exists_cons_of_ne_nil (pieces_ne_nil size h.positive stay)
    obtain ⟨hle, -⟩ :=
      mem_pieceVisits (hpieces ▸ List.mem_cons_self : piece ∈ stay.pieces size factor)
    obtain ⟨block, -, hlt, -⟩ := exists_right_of_mem hall (hpieces ▸ List.mem_cons_self)
    rw [hcut.length] at hlt
    exact lt_of_mul_lt_mul_right (lt_of_le_of_lt hle hlt) (Nat.zero_le factor)
  refine ⟨(stay.pieces size factor).map fun visit => pieces.rows voicing.kernel
    (pieces.effects.getD visit.slot []) takesSpeed (slots.getD visit.slot none) visit.rows, ?_, ?_⟩
  · rw [← passage_pieces h hcut voicing.kernel takesSpeed hslot hin hrows]
    exact List.flatMap_def.symm
  · exact List.forall₂_map_left_iff.mpr (hall.imp fun _ _ hcode => hcode.2)

/-- The stream of a channel of a split song is the code of the stays in the slots of the song. -/
theorem stream_stays (h : Cut song pieces size factor) {number : Nat}
    (hc : song.channels[number]? = some channel) {speedChannel : Int} {stream : ChannelStream}
    (hs : pieces.stream encoding speedChannel factor number = .ok stream) :
    song.Stays ⟨encoding.kernel, channel.voice, encoding.index⟩ (number = speedChannel) channel
      (song.staysBy (song.exit size)) stream := by
  obtain ⟨slots, hget, hcut⟩ := h.channel number channel hc
  obtain ⟨active, after, hintro, hbody⟩ := Song.stream_eq_ok hget hs
  have hparts : (pieces.parts factor).1 ++ (pieces.parts factor).2 =
      (song.staysBy (song.exit size)).flatMap (Visit.pieces size factor) := by
    rw [Song.parts, Song.splitVisits_append, visits_stays h]
  have hblocks := List.rel_append (visitCommands_blocks hintro) (visitCommands_blocks hbody)
  dsimp only at hblocks
  rw [hparts] at hblocks
  obtain ⟨groups, hgroups, hall⟩ := forall₂_groups hblocks
  refine ⟨groups, hgroups, ?_⟩
  have hstays := (List.forall₂_and_left _ _).mpr ⟨fun stay hm => mem_stays h hm, hall⟩
  exact hstays.imp fun stay group hgroup =>
    codeOf_pieces h hcut hgroup.1.1 hgroup.1.2 hgroup.2

/-- The rows of a slot before its exit are encoded, and the song goes on with the next slot unless
the exit ends it. -/
theorem encode_stays {factor : Int} (hs : song.split factor = some pieces) {speedChannel : Int}
    {pool : PatternPool} {code : SongCode}
    (hok : pieces.encode encoding speedChannel factor pool = .ok code) {number : Nat}
    (hc : song.channels[number]? = some channel) :
    ∃ channelCode stream, code.channels[number]? = some channelCode ∧
      pieces.stream encoding speedChannel factor number = .ok stream ∧
      channelCode.Carries code.pool stream ∧
      song.Stays ⟨encoding.kernel, channel.voice, encoding.index⟩ (number = speedChannel) channel
        (song.staysBy (song.exit pieces.patternLength)) stream := by
  obtain ⟨size, hfactor, hcut⟩ := split_cut hs
  have hstores := encode_stores hok
  have hlt : number < code.channels.length := by
    rw [hstores.length, hcut.channels]
    exact (List.getElem?_eq_some_iff.mp hc).1
  have hcode := List.getElem?_eq_getElem hlt
  obtain ⟨-, stream, hstream, hcarries⟩ := hstores.channel number _ hcode
  refine ⟨_, stream, hcode, hstream, hcarries, ?_⟩
  rw [hcut.patternLength]
  rw [← hfactor] at hstream
  exact stream_stays hcut hc hstream

/-- A jump in the second row of a slot and a skip in the third. -/
def hastySong : Song where
  id := 0
  name := "hasty"
  patternLength := 3
  length := 2
  patterns := [
    [{ value := 30 }, { effect := .jump }, { effect := .skip }],
    [{ value := 32 }, {}, {}]]
  channels := [⟨.square1, [some 0, some 1]⟩]

theorem hastySong_stays : hastySong.split 1 = some hastySong ∧
    hastySong.staysBy (hastySong.exit 3) = [⟨0, 2⟩, ⟨1, 3⟩] ∧
    ∃ code, hastySong.encode soleEncoding 0 1 {} = .ok code ∧
      ∃ channelCode stream, code.channels[0]? = some channelCode ∧
        hastySong.stream soleEncoding 0 1 0 = .ok stream ∧ channelCode.Carries code.pool stream ∧
        hastySong.Stays ⟨.extended, .square1, soleEncoding.index⟩ true
          ⟨.square1, [some 0, some 1]⟩ (hastySong.staysBy (hastySong.exit 3)) stream := by
  have hok : (hastySong.encode soleEncoding 0 1 {}).isOk = true := by decide +kernel
  have hsplit : hastySong.split 1 = some hastySong := by decide
  have hchannel : hastySong.channels[0]? = some ⟨.square1, [some 0, some 1]⟩ := rfl
  obtain ⟨code, hcode⟩ := ok_of_isOk hok
  exact ⟨hsplit, by decide, code, hcode, encode_stays hsplit hcode hchannel⟩

/-- The exit in the first row with a skip or a jump, whatever comes later. -/
def Song.earliestExit (song : Song) (slot : Nat) : Exit :=
  match (List.range song.patternLength).find? fun row =>
      song.carries .skip slot row || song.carries .jump slot row with
  | none => ⟨song.patternLength, false⟩
  | some first => ⟨first, !song.carries .skip slot first⟩

/-- The code of some rows does not have more row commands than there are rows. -/
lemma CodeOf.rowCommands_le {voicing : Voicing} {rows : List Row} {blocks : List (List Command)}
    (h : CodeOf voicing rows blocks) (hplain : ∀ row ∈ rows, row.Plain voicing.kernel) :
    rowCommands blocks.flatten ≤ rows.length := by
  obtain ⟨parts, rfl, hall⟩ := h
  induction hall with
  | nil => exact Nat.le_refl 0
  | @cons part block parts blocks hpart _ ih =>
    obtain ⟨short, active, after, hok⟩ := hpart
    have hfirst := (encodeRows_renders (fun row hr => hplain row (by simp [hr])) hok).count
    have hrest := ih fun row hr => hplain row (List.mem_append_right _ hr)
    rw [List.flatten_cons, List.flatten_cons, List.length_append, rowCommands, List.countP_append]
    exact Nat.add_le_add hfirst hrest

/-- The song does not leave its first slot in the row of the jump, and it does not end there. -/
theorem hastySong_stays_longer : hastySong.split 1 = some hastySong ∧
    hastySong.earliestExit 0 = ⟨1, true⟩ ∧
    ∃ code stream, hastySong.encode soleEncoding 0 1 {} = .ok code ∧
      hastySong.stream soleEncoding 0 1 0 = .ok stream ∧
      ¬ hastySong.Stays ⟨.extended, .square1, soleEncoding.index⟩ true
        ⟨.square1, [some 0, some 1]⟩ (hastySong.staysBy hastySong.earliestExit) stream := by
  have hok : (hastySong.encode soleEncoding 0 1 {}).isOk = true := by decide +kernel
  have hslots : (hastySong.stream soleEncoding 0 1 0).map ChannelStream.slots =
      .ok [[.note 21, .emptyRows 0], [.note 23, .emptyRows 1]] := by decide +kernel
  have hstays : hastySong.staysBy hastySong.earliestExit = [⟨0, 1⟩] := by decide
  have hchannel : hastySong.channels[0]? = some ⟨.square1, [some 0, some 1]⟩ := rfl
  obtain ⟨code, hcode⟩ := ok_of_isOk hok
  obtain ⟨stream, hstream⟩ : ∃ stream, hastySong.stream soleEncoding 0 1 0 = .ok stream :=
    ok_of_isOk (by decide +kernel)
  refine ⟨by decide, by decide, code, stream, hcode, hstream, ?_⟩
  rintro ⟨groups, hgroups, hall⟩
  rw [hstream] at hslots
  rw [Except.ok.inj hslots] at hgroups
  rw [hstays] at hall
  obtain ⟨group, rest, hgroup, hrest, rfl⟩ := List.forall₂_cons_left_iff.mp hall
  obtain rfl := List.forall₂_nil_left_iff.mp hrest
  have hplain : ∀ row ∈ hastySong.rows .extended (hastySong.effects.getD 0 []) true (some 0) 1,
      row.Plain .extended :=
    Song.rows_plain true (by decide) (List.mem_of_getElem? hchannel) (by simp) _ 1
  have hcount := hgroup.rowCommands_le hplain
  rw [List.flatten_singleton] at hgroups
  rw [hgroups] at hcount
  exact absurd hcount (by decide +kernel)

end Streams

end Chiptune
