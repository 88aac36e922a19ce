import Shortstack.JumpHash
import Shortstack.LibDecimal

/-! The initializer: replica counts, labels and the fake distribution of a real
distribution over the keys. The counts come with the arithmetic they are computed in as a
parameter: the code divides doubles, whose quotients may end up above an integer, and the exact
quotients are those its formulas stand for. -/
namespace Shortstack

structure Distribution where
  items : List String
  probabilities : List ℚ
  deriving DecidableEq, Repr

structure DistributionInfo where
  numKeys : ℕ
  dummyKey : String
  keyToNumberOfReplicas : AList (fun _ : String => ℤ)
  fakeDistribution : Distribution
  realDistribution : Distribution
  replicaToLabel : AList (fun _ : String => ℕ)

/-- A distribution over distinct keys, each of positive probability. Of doubles the sum is 1 up
to rounding only. -/
structure KeyDistribution extends Distribution where
  nodup : items.Nodup
  lengths : items.length = probabilities.length
  positive : ∀ p ∈ probabilities, 0 < p

/-- The probabilities add up to 1. -/
structure RealDistribution extends KeyDistribution where
  total : probabilities.sum = 1

/-- The members of `initializer` together with the contents of the store; `written` is a
history variable with the labels of all `put_batch` calls. -/
structure Initializer where
  keyToNumberOfReplicas : AList (fun _ : String => ℤ)
  replicaToLabel : AList (fun _ : String => ℕ)
  labelCount : ℕ
  labels : List String
  store : AList (fun _ : String => String)
  written : List String

namespace Initializer

def empty : Initializer := ⟨∅, ∅, 0, [], ∅, []⟩

/-- `put_batch` of the buffered labels, all with the same value. -/
def flush (init : Initializer) (valueCipher : String) : Initializer :=
  { init with
    store := init.labels.foldl (fun store label => store.insert label valueCipher) init.store
    written := init.written ++ init.labels }

/-- The body of the loop in `insert_replicas`. -/
def insertReplica (valueCipher : String) (init : Initializer) (replica : String) : Initializer :=
  let init :=
    { init with
      replicaToLabel := init.replicaToLabel.insert replica init.labelCount
      labels := init.labels ++ [toString init.labelCount] }
  let init := if 50 ≤ init.labels.length then { init.flush valueCipher with labels := [] } else init
  { init with labelCount := init.labelCount + 1 }

def replicaName (key : String) (i : ℕ) : String := key ++ toString i

def insertReplicas (valueCipher : String) (init : Initializer) (key : String) (numReplicas : ℤ) :
    Initializer :=
  (List.range numReplicas.toNat).foldl
    (fun init i => init.insertReplica valueCipher (replicaName key i)) init

/-- One key of the loop in `create_replicas`: set its count and insert its replicas. -/
def addKey (valueCipher : String) (init : Initializer) (key : String) (numReplicas : ℤ) :
    Initializer :=
  { init with keyToNumberOfReplicas := init.keyToNumberOfReplicas.insert key numReplicas }
    |>.insertReplicas valueCipher key numReplicas

/-- The loop of `create_replicas`, over the keys with their counts, and what comes after it. -/
def create (counts : List (String × ℤ)) (dummy : String × ℤ) (valueCipher : String) : Initializer :=
  let addKey := fun init (key : String × ℤ) => Initializer.addKey valueCipher init key.1 key.2
  let init := counts.foldl addKey .empty
  let init := if dummy.2 ≠ 0 then addKey init dummy else init
  if init.labels ≠ [] then init.flush valueCipher else init

end Initializer

/-- The double nearest to a positive number. The exponent is not bounded: a ceiling is 1 for all
quotients too small for a double. -/
def toDouble (x : ℚ) : ℚ := (roundDouble x.num.toNat x.den).1 / (roundDouble x.num.toNat x.den).2

namespace Distribution
variable (round : ℚ → ℚ) (dist : Distribution)

/-- `1.0 / keys.size()` -/
def alpha : ℚ := round (1 / dist.items.length)

/-- `ceil(pi/alpha_)` -/
def replicaCount (p : ℚ) : ℤ := ⌈round (p / dist.alpha round)⌉

def keysCreated : ℤ := (dist.probabilities.map (dist.replicaCount round)).sum

/-- The test `0 > 2*keys.size()-keys_created` is made on unsigned numbers and never holds;
the difference is then stored in an `int`. -/
def dummyReplicaCount : ℤ := 2 * dist.items.length - dist.keysCreated round

/-- The keys in the order they are inserted, with their replica counts. -/
def realCounts : List (String × ℤ) :=
  dist.items.zip (dist.probabilities.map (dist.replicaCount round))

def createReplicas (dummyKey valueCipher : String) : Initializer :=
  .create (dist.realCounts round) (dummyKey, dist.dummyReplicaCount round) valueCipher

end Distribution

def delta : ℚ := 1 / 2

/-! With exact quotients. -/
namespace RealDistribution
variable (dist : RealDistribution)

def alpha : ℚ := dist.toDistribution.alpha id

def replicaCount (p : ℚ) : ℤ := dist.toDistribution.replicaCount id p

def fakeProbability (p : ℚ) : ℚ :=
  dist.replicaCount p * (dist.alpha - p / dist.replicaCount p) / (1 / delta - 1)

def keysCreated : ℤ := dist.toDistribution.keysCreated id

def dummyReplicaCount : ℤ := dist.toDistribution.dummyReplicaCount id

def dummyProbability : ℚ := dist.alpha / (1 / delta - 1) * dist.dummyReplicaCount

def realCounts : List (String × ℤ) := dist.toDistribution.realCounts id

def createReplicas (dummyKey valueCipher : String) : Initializer :=
  dist.toDistribution.createReplicas id dummyKey valueCipher

def fakeDistribution (dummyKey : String) : Distribution where
  items := dist.items ++ [dummyKey]
  probabilities := dist.probabilities.map dist.fakeProbability ++
    if dist.dummyReplicaCount ≠ 0 then [dist.dummyProbability] else []

def init (dummyKey valueCipher : String) : DistributionInfo where
  numKeys := dist.items.length
  dummyKey := dummyKey
  keyToNumberOfReplicas := (dist.createReplicas dummyKey valueCipher).keyToNumberOfReplicas
  fakeDistribution := dist.fakeDistribution dummyKey
  realDistribution := dist.toDistribution
  replicaToLabel := (dist.createReplicas dummyKey valueCipher).replicaToLabel

end RealDistribution
end Shortstack
