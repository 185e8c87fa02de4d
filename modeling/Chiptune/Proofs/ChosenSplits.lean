import Chiptune.Export.Document
import Chiptune.Proofs.ExportSharing

/-!
# The songs of a document

The search leaves one candidate for each song, and a document holds the code that the pieces of the
song have under this candidate. So the songs of a document are encoded in turn, from one pool to
the next.
-/

namespace Chiptune

/-- The code of a choice is that of the song cut by its factor. -/
structure Choice.Stems (song : Song) (encoding : Encoding) (pool : PatternPool)
    (pieces : Song) (choice : Choice) : Prop where
  channel : choice.candidate.channel < song.channels.length
  split : song.split choice.candidate.factor = some pieces
  encode : pieces.encode encoding choice.candidate.channel choice.candidate.factor pool =
    .ok choice.code

section Search

variable {song : Song} {encoding : Encoding} {pool : PatternPool} {pieceRows : Int}

lemma tryCandidate_eq_some {candidate : Candidate} {code : SongCode}
    (h : song.tryCandidate encoding pool candidate = .ok (some code)) :
    ∃ pieces, song.split candidate.factor = some pieces ∧
      pieces.encode encoding candidate.channel candidate.factor pool = .ok code := by
  unfold Song.tryCandidate at h
  split at h
  · exact nomatch Except.ok.inj h
  · next pieces hsplit =>
    split at h
    · next code' hcode =>
      obtain rfl := Option.some.inj (Except.ok.inj h)
      exact ⟨pieces, hsplit, hcode⟩
    · exact nomatch Except.ok.inj h
    · exact nomatch h

lemma mem_candidates {candidate : Candidate} (h : candidate ∈ song.candidates pieceRows) :
    candidate.channel < song.channels.length := by
  obtain ⟨channel, hchannel, h⟩ := List.mem_flatMap.mp h
  obtain ⟨factor, -, rfl⟩ := List.mem_map.mp h
  exact List.mem_range.mp hchannel

/-- The best candidate so far is one of those that were tried. -/
lemma searchAmong_stems {candidates : List Candidate} {best result : Option Choice}
    (hc : ∀ candidate ∈ candidates, candidate.channel < song.channels.length)
    (hb : ∀ choice, best = some choice → ∃ pieces, choice.Stems song encoding pool pieces)
    (h : song.searchAmong encoding pool best candidates = .ok result) :
    ∀ choice, result = some choice → ∃ pieces, choice.Stems song encoding pool pieces := by
  induction candidates generalizing best with
  | nil =>
    obtain rfl := Except.ok.inj h
    exact hb
  | cons candidate rest ih =>
    have hrest := fun other ho => hc other (List.mem_cons_of_mem _ ho)
    rw [Song.searchAmong] at h
    obtain ⟨tried, htried, h⟩ := (bind_eq_ok_iff _ _ _).mp h
    cases tried with
    | none => exact ih hrest hb h
    | some code =>
      refine ih hrest ?_ h
      obtain ⟨pieces, hsplit, hencode⟩ := tryCandidate_eq_some htried
      have hnew : Choice.Stems song encoding pool pieces ⟨candidate, code⟩ :=
        ⟨hc candidate (by simp), hsplit, hencode⟩
      intro choice hchoice
      obtain rfl := Option.some.inj hchoice
      cases best with
      | none => exact ⟨pieces, hnew⟩
      | some old =>
        rw [Song.smaller]
        by_cases hsize : code.size < old.code.size
        · rw [if_pos hsize]
          exact ⟨pieces, hnew⟩
        · rw [if_neg hsize]
          exact hb old rfl

/-- What a search leaves stems from one of the candidates. -/
theorem search_stems {choice : Choice}
    (h : song.search encoding pieceRows pool = .ok choice) :
    ∃ pieces, choice.Stems song encoding pool pieces := by
  obtain ⟨result, hresult, h⟩ := (bind_eq_ok_iff _ _ _).mp h
  cases result with
  | none => exact nomatch h
  | some found =>
    obtain rfl := Except.ok.inj h
    exact searchAmong_stems (fun _ hm => mem_candidates hm) (by simp) hresult _ rfl

end Search

namespace Export

/-- The job that leads to a choice for a song. -/
structure JobOf (encoding : Encoding) (entry : Song × Choice) (job : SongJob) : Prop where
  encoding : job.encoding = encoding
  speedChannel : job.speedChannel = entry.2.candidate.channel
  factor : job.factor = entry.2.candidate.factor
  channel : entry.2.candidate.channel < entry.1.channels.length
  split : entry.1.split entry.2.candidate.factor = some job.song

/-- The songs of a document are encoded in turn. -/
theorem encodeSongs_inTurn {encoding : Encoding} {pieceRows : Int} {pool : PatternPool}
    {songs : List Song} {entries : List (Song × Choice)}
    (h : encodeSongs encoding pieceRows pool songs = .ok entries) :
    entries.map Prod.fst = songs ∧ ∃ jobs,
      encodeInTurn pool jobs = .ok (entries.map fun entry => entry.2.code) ∧
      List.Forall₂ (JobOf encoding) entries jobs := by
  induction songs generalizing pool entries with
  | nil =>
    obtain rfl := Except.ok.inj h
    exact ⟨rfl, [], rfl, .nil⟩
  | cons song rest ih =>
    obtain ⟨choice, hchoice, h⟩ := (bind_eq_ok_iff _ _ _).mp h
    obtain ⟨later, hlater, h⟩ := (bind_eq_ok_iff _ _ _).mp h
    obtain rfl := Except.ok.inj h
    obtain ⟨hsongs, jobs, hjobs, hof⟩ := ih hlater
    obtain ⟨pieces, hstems⟩ := search_stems hchoice
    refine ⟨by rw [List.map_cons, hsongs], ⟨pieces, encoding, choice.candidate.channel,
      choice.candidate.factor⟩ :: jobs, ?_, .cons ⟨rfl, rfl, rfl, hstems.channel, hstems.split⟩ hof⟩
    rw [encodeInTurn, hstems.encode]
    rw [ok_bind, hjobs]
    rfl

end Export

end Chiptune
