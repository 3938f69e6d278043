import StorageTrials.Tally
import StorageTrials.Timestamp

namespace StorageTrials

structure Summary where
  timestamp : Timestamp
  loopCount : Nat
  runners : List RunnerSummary
deriving DecidableEq, Repr

end StorageTrials
