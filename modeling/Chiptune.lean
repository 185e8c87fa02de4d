import Chiptune.Arrangement.Build
import Chiptune.Arrangement.Ensemble
import Chiptune.Arrangement.Grid
import Chiptune.Arrangement.Melody
import Chiptune.Arrangement.Warning
import Chiptune.Assembly.Assembler
import Chiptune.Assembly.Dialect
import Chiptune.Assembly.Line
import Chiptune.Assembly.Statement
import Chiptune.Assoc
import Chiptune.Bytes
import Chiptune.CommandLine.Grammar
import Chiptune.CommandLine.Run
import Chiptune.CommandLine.Settings
import Chiptune.Error
import Chiptune.Export.Document
import Chiptune.Export.InPlace
import Chiptune.Export.Link
import Chiptune.Export.Prepare
import Chiptune.Export.Save
import Chiptune.Export.Tables
import Chiptune.FileTree
import Chiptune.Fti
import Chiptune.InstrumentMap
import Chiptune.Json.Document
import Chiptune.Json.Value
import Chiptune.Limits
import Chiptune.Main
import Chiptune.Midi.File
import Chiptune.Midi.Message
import Chiptune.Midi.Timeline
import Chiptune.Music.Instrument
import Chiptune.Music.Note
import Chiptune.Music.Project
import Chiptune.Music.Sample
import Chiptune.Music.Song
import Chiptune.Music.Split
import Chiptune.Number.Basic
import Chiptune.Number.Binary64
import Chiptune.Sound.Command
import Chiptune.Sound.EnvelopeStream
import Chiptune.Sound.Flow
import Chiptune.Sound.Kernel
import Chiptune.Sound.PatternCode
import Chiptune.Sound.Pool
import Chiptune.Sound.Search
import Chiptune.Sound.SongCode
import Chiptune.Text.Blank
import Chiptune.Text.Case
import Chiptune.Text.CodePoint
import Chiptune.Text.Decimal
import Chiptune.Text.Digit
import Chiptune.Text.Hex
import Chiptune.Text.Lines
import Chiptune.Text.Numeral
import Chiptune.Text.Occurrence
import Chiptune.Text.Path
import Chiptune.Text.Printable
import Chiptune.Text.Quoted
import Chiptune.Total
import Chiptune.Proofs.CommandStream
import Chiptune.Proofs.Outcome
import Chiptune.Proofs.PatternRows
import Chiptune.Proofs.SharedBuffers
import Chiptune.Proofs.SongStreams
import Chiptune.Proofs.SongRows
import Chiptune.Proofs.SlotPlayback
import Chiptune.Proofs.PlayOrder
import Chiptune.Proofs.SongPlayback
import Chiptune.Proofs.Encodable
import Chiptune.Proofs.ExportSharing
import Chiptune.Proofs.HeardRows
import Chiptune.Proofs.LoopInstruments
import Chiptune.Proofs.SplitPieces
import Chiptune.Proofs.SplitVisits
import Chiptune.Proofs.SplitMusic
import Chiptune.Proofs.Spelling
import Chiptune.Proofs.TwoPasses
import Chiptune.Proofs.LineText
import Chiptune.Proofs.LineCode
import Chiptune.Proofs.SoundDriver
import Chiptune.Proofs.LinkedStream
import Chiptune.Proofs.ChosenSplits
import Chiptune.Proofs.DocumentLines
import Chiptune.Proofs.Score
import Chiptune.Proofs.PreparedSongs
import Chiptune.Proofs.LinkedSongs
import Chiptune.Proofs.ChannelLength
import Chiptune.Proofs.Numerals
import Chiptune.Proofs.LineMeaning
import Chiptune.Proofs.DocumentLabels
import Chiptune.Proofs.DocumentSize
import Chiptune.Proofs.Dialects
import Chiptune.Proofs.Nameless
import Chiptune.Proofs.LinkedNames
import Chiptune.Proofs.LoopRows
import Chiptune.Proofs.LoopLabels
import Chiptune.Proofs.Refusals
import Chiptune.Proofs.ArrangedSongs
import Chiptune.Proofs.ArrangedExport
import Chiptune.Proofs.OperandBytes
import Chiptune.Proofs.HeardNotes
import Chiptune.Proofs.QuantisedNotes
import Chiptune.Proofs.MelodyRows
import Chiptune.Proofs.VoiceSlots
import Chiptune.Proofs.ArrangedVoices
import Chiptune.Proofs.ArrangedMelody
import Chiptune.Proofs.ArrangedLoop
import Chiptune.Proofs.ArrangedPitches
import Chiptune.Proofs.SampleRegions
import Chiptune.Proofs.Preparation
import Chiptune.Proofs.EnvelopePlaces
import Chiptune.Proofs.EnvelopeRegions
import Chiptune.Proofs.PreparedObjects
import Chiptune.Proofs.Unselected
import Chiptune.Proofs.StoredFiles
import Chiptune.Proofs.Programs
import Chiptune.Proofs.WholeRuns
import Chiptune.Proofs.PatternObjects
import Chiptune.Proofs.CopiedSongs
import Chiptune.Proofs.Desk
import Chiptune.Proofs.EnvelopePlayer
import Chiptune.Proofs.EnvelopeStreams
import Chiptune.Proofs.EffectNotes
import Chiptune.Proofs.DecodedPatterns
import Chiptune.Proofs.SlotExits
import Chiptune.Proofs.StayStreams
import Chiptune.Proofs.EncoderRuns
import Chiptune.Proofs.TrialRuns
import Chiptune.Proofs.OptimalSplits
import Chiptune.Proofs.NoteSpans
import Chiptune.Proofs.ExactSplits
import Chiptune.Proofs.LinkedSamples
import Chiptune.Proofs.Listings
import Chiptune.Proofs.OperandTexts
import Chiptune.Proofs.ByteValues
import Chiptune.Proofs.ReferenceAssembler
import Chiptune.Proofs.StreamTables
import Chiptune.Proofs.SustainedVolumes
import Chiptune.Proofs.PoolCapacity
import Chiptune.Proofs.GridOrder
import Chiptune.Proofs.ProgramChanges
import Chiptune.Proofs.ArrangedInstruments
import Chiptune.Proofs.ArrangedPrograms
import Chiptune.Proofs.TrackerReaders
import Chiptune.Proofs.TrackerFiles
import Chiptune.Proofs.NormalMaps
