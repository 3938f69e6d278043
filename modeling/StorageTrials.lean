import StorageTrials.Main
import StorageTrials.Proofs.Agreement
import StorageTrials.Proofs.Bookkeeping
import StorageTrials.Proofs.CommandLine.FileNames
import StorageTrials.Proofs.Completion
import StorageTrials.Proofs.DirectRun
import StorageTrials.Proofs.FileSystem.Interrupting
import StorageTrials.Proofs.Frame
import StorageTrials.Proofs.FreshInserts
import StorageTrials.Proofs.ObjectStore.Histories
import StorageTrials.Proofs.Refusal
import StorageTrials.Proofs.Repetition
import StorageTrials.Proofs.Sizes
import StorageTrials.Proofs.SourceSafety
import StorageTrials.Proofs.StatisticsText
import StorageTrials.Proofs.Stopping
import StorageTrials.Proofs.SummaryText
import StorageTrials.Proofs.Totals
import StorageTrials.Proofs.Turns
