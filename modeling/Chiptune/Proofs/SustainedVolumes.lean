import Chiptune.Proofs.EnvelopeStreams
import Chiptune.Proofs.Preparation

/-!
# Sustained volumes

A kernel that never releases a note gets the volume up to the release, and the other one the whole
envelope with a jump in front of the release. As long as the note is held both play the same.
-/

namespace Chiptune

namespace Envelope

/-- In every frame one stream plays what the other one plays, whatever was held before. -/
def Alike (stream : Bytes) (start : Nat) (other : Bytes) (otherStart : Nat) : Prop :=
  ∀ value otherValue frame, ∃ b, heard? stream ⟨start, value, 0⟩ frame = some b ∧
    heard? other ⟨otherStart, otherValue, 0⟩ frame = some b

lemma Plays.alike {stream other : Bytes} {start otherStart : Nat} {level : Nat → Int}
    (h : Plays stream start level) (h' : Plays other otherStart level) :
    Alike stream start other otherStart := by
  intro value otherValue frame
  obtain ⟨b, hheard, hlevel⟩ := h value frame
  obtain ⟨b', hheard', hlevel'⟩ := h' otherValue frame
  have hsame : b.toNat = b'.toNat := by omega
  obtain rfl := UInt8.toNat_inj.mp hsame
  exact ⟨b, hheard, hheard'⟩

/-- An envelope with values to hold before its release, which is one of its positions. -/
structure Sustains (env : Envelope) : Prop where
  release_pos : 0 < env.release
  release_lt : env.release < env.values.length
  loop_lt : env.loop < env.release

/-- The envelope before its release. -/
def held (env : Envelope) : Envelope :=
  { values := env.values.take env.release.toNat, loop := env.loop, release := -1 }

namespace Sustains

variable {env : Envelope} (h : env.Sustains)

include h

lemma cutAtRelease_eq : env.cutAtRelease = env.held := by
  have hpos := h.release_pos
  have hlt := h.release_lt
  have hloop := h.loop_lt
  have hlength : (env.values.take env.release.toNat).length = env.release.toNat :=
    List.length_take_of_le (by omega)
  unfold cutAtRelease
  rw [if_pos hpos.le]
  dsimp only
  rw [hlength, if_neg (by omega)]
  rfl

lemma held_values : env.held.values ≠ [] := by
  have hpos := h.release_pos
  have hlt := h.release_lt
  have hlength : env.held.values.length = env.release.toNat := List.length_take_of_le (by omega)
  rw [← List.length_pos_iff, hlength]
  omega

lemma values_ne_nil : env.values ≠ [] := by
  have hpos := h.release_pos
  have hlt := h.release_lt
  rw [← List.length_pos_iff]
  omega

/-- Where notes are never released the envelope ends before its release, and else it is kept. -/
lemma volume_fitted {instrument : Instrument} (hvolume : instrument.volume = some env) :
    (instrument.fitted .legacy).volume = some env.held ∧
      (instrument.fitted .extended).volume = some env := by
  have hkept : env.sanitised = env :=
    env.sanitised_of_releasable (.inr ⟨h.release_pos, h.release_lt, h.loop_lt⟩)
  rw [fitted_eq, fitted_eq, hvolume]
  constructor
  · have hmended : env.mended .legacy = env.held := h.cutAtRelease_eq
    rw [Option.map_some, hmended, orFullVolume_some h.held_values]
  · have hmended : env.mended .extended = env := hkept
    rw [Option.map_some, hmended, orFullVolume_some h.values_ne_nil]

lemma compiles : env.held.Compiles false ∧ env.Compiles true :=
  ⟨stream_plays h.held_values (fun hoff => nomatch hoff),
    stream_plays h.values_ne_nil fun _ => .inr (.inr ⟨h.release_pos, h.release_lt, h.loop_lt⟩)⟩

lemma releaseAt_eq : env.releaseAt true = some env.release.toNat := by
  have hinside : 0 ≤ env.release ∧ env.release < env.values.length :=
    ⟨h.release_pos.le, h.release_lt⟩
  exact if_pos hinside

end Sustains

/-- Of a stream that fits it is known what it plays. -/
lemma Compiles.plays {env : Envelope} {allowRelease : Bool} {bytes : Bytes}
    (h : env.Compiles allowRelease) (hbytes : env.stream allowRelease = .ok (some bytes)) :
    PlaysEnvelope env allowRelease bytes := by
  rcases h with ⟨compiled, hcompiled, hplays⟩ | ⟨-, size, -, hrefused⟩
  · rw [hbytes] at hcompiled
    exact Option.some.inj (Except.ok.inj hcompiled) ▸ hplays
  · rw [hbytes] at hrefused
    cases hrefused

/-- Both kernels sustain a volume alike. Each has a stream for it unless the envelope is too long,
and the streams play the same until the note is released. -/
theorem sustained_alike {env : Envelope} (h : env.Sustains) {instrument : Instrument}
    (hvolume : instrument.volume = some env) :
    (instrument.fitted .legacy).volume = some env.held ∧
      (instrument.fitted .extended).volume = some env ∧
      env.held.Compiles Kernel.legacy.supportsReleases ∧
      env.Compiles Kernel.extended.supportsReleases ∧
      ∀ cut whole, env.held.stream Kernel.legacy.supportsReleases = .ok (some cut) →
        env.stream Kernel.extended.supportsReleases = .ok (some whole) →
        Alike cut (origin Kernel.legacy.supportsReleases)
          whole (origin Kernel.extended.supportsReleases) := by
  obtain ⟨hlegacy, hextended⟩ := h.volume_fitted hvolume
  obtain ⟨hheld, hwhole⟩ := h.compiles
  refine ⟨hlegacy, hextended, hheld, hwhole, fun cut whole hcut hstream => ?_⟩
  have hfirst : Plays cut (origin false) (levelAt env.held.values env.held.loop) :=
    (hheld.plays hcut).unreleased rfl
  have hsecond : Plays whole (origin true) (levelAt env.held.values env.held.loop) :=
    (hwhole.plays hstream).held _ h.releaseAt_eq
  exact hfirst.alike hsecond

/-- A constant volume that fades away. -/
def fadingEnvelope : Envelope := { values := [9, 9, 9, 9, 5, 2], release := 4 }

/-- The cut stream ends with a value of its own, and the whole one holds the last of its runs. -/
theorem fadingEnvelope_alike :
    fadingEnvelope.Sustains ∧
      fadingEnvelope.held.stream false = .ok (some [201, 2, 201, 0, 2]) ∧
      fadingEnvelope.stream true = .ok (some [5, 201, 3, 0, 1, 197, 194, 0, 6]) ∧
      Alike [201, 2, 201, 0, 2] 0 [5, 201, 3, 0, 1, 197, 194, 0, 6] 1 := by
  have hsustains : fadingEnvelope.Sustains := ⟨by decide, by decide, by decide⟩
  have hcut : fadingEnvelope.held.stream false = .ok (some [201, 2, 201, 0, 2]) := by
    decide +kernel
  have hwhole : fadingEnvelope.stream true =
      .ok (some [5, 201, 3, 0, 1, 197, 194, 0, 6]) := by decide +kernel
  obtain ⟨-, -, -, -, halike⟩ := sustained_alike hsustains
    (show ({ id := 0, name := "", volume := some fadingEnvelope } : Instrument).volume = _ from rfl)
  exact ⟨hsustains, hcut, hwhole, halike _ _ hcut hwhole⟩

end Envelope

end Chiptune
