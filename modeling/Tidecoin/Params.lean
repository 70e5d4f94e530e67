import Tidecoin.Arith
import Tidecoin.Script.Flags

/-!
The consensus parameters of `consensus/params.h` that the modelled code reads, and the parameter
sets `kernel/chainparams.cpp` builds. Heights and times are unbounded integers: every sum the
model forms stays far inside the C++ types for the heights a chain can reach. The deployments by
version bits, the BIP34 hash and the assume-valid hash are not part of the model.
-/

namespace Tidecoin

/-- `Consensus::AUXPOW_DISABLED`, the largest `int`. -/
def auxpowDisabled : Int := 2 ^ 31 - 1

/-- `Consensus::Params`. The proof fields are the conditions under which the arithmetic over the
parameters is defined, together with two relations that every network of the program keeps: a chain
that never retargets accepts minimum-difficulty blocks, and an exception to the script flags of a
block only takes away from the two flags that are always on. -/
structure Params where
  hashGenesisBlock : Uint256
  nSubsidyHalvingInterval : Int
  scriptFlagExceptions : List (Uint256 × Finset ScriptFlag)
  bip34Height : Int
  bip65Height : Int
  bip66Height : Int
  csvHeight : Int
  segwitHeight : Int
  nAuxpowStartHeight : Int
  nAuxpowChainId : Int
  fStrictChainId : Bool
  powLimit : Uint256
  fPowAllowMinDifficultyBlocks : Bool
  enforceBIP94 : Bool
  fPowNoRetargeting : Bool
  fPowGenesisScrypt : Bool
  nPowTargetSpacing : Int
  nPowTargetTimespan : Int
  nPowAllowMinDifficultyBlocksAfterHeight : Option UInt32
  nPowAveragingWindow : Nat
  nPowMaxAdjustDown : Int
  nPowMaxAdjustUp : Int
  nMinimumChainWork : Uint256
  spacingPos : 0 < nPowTargetSpacing
  spacingLeTimespan : nPowTargetSpacing ≤ nPowTargetTimespan
  windowPos : 0 < nPowAveragingWindow
  windowFitsInt : nPowAveragingWindow + 12 < 2 ^ 31
  minDifficultyOfNoRetargeting : fPowNoRetargeting = true →
    fPowAllowMinDifficultyBlocks = true ∧ nPowAllowMinDifficultyBlocksAfterHeight = none
  exceptionsRelax : ∀ exception ∈ scriptFlagExceptions,
    exception.2 ⊆ {.p2sh, .witness} ∧ (.witness ∈ exception.2 → .p2sh ∈ exception.2)

namespace Params

variable (params : Params)

def difficultyAdjustmentInterval : Int := params.nPowTargetTimespan.tdiv params.nPowTargetSpacing

def averagingWindowTimespan : Int := params.nPowAveragingWindow * params.nPowTargetSpacing

def minActualTimespan : Int :=
  (params.averagingWindowTimespan * (100 - params.nPowMaxAdjustUp)).tdiv 100

def maxActualTimespan : Int :=
  (params.averagingWindowTimespan * (100 + params.nPowMaxAdjustDown)).tdiv 100

end Params

/-- The parameters of `CMainParams`: merged mining is disabled, difficulty is retargeted every
7200 blocks. -/
def mainParams : Params where
  hashGenesisBlock := 0x480ecc7602d8989f32483377ed66381c391dda6215aeef9e80486a7fd3018075
  nSubsidyHalvingInterval := 262800
  scriptFlagExceptions := []
  bip34Height := 1
  bip65Height := 1
  bip66Height := 1
  csvHeight := 1
  segwitHeight := 1
  nAuxpowStartHeight := auxpowDisabled
  nAuxpowChainId := 8
  fStrictChainId := true
  powLimit := 0x01ffffffffffffffffffffffffffffffffffffffffffffffffffffffffffffff
  fPowAllowMinDifficultyBlocks := false
  enforceBIP94 := false
  fPowNoRetargeting := false
  fPowGenesisScrypt := false
  nPowTargetSpacing := 60
  nPowTargetTimespan := 5 * 24 * 60 * 60
  nPowAllowMinDifficultyBlocksAfterHeight := none
  nPowAveragingWindow := 17
  nPowMaxAdjustDown := 32
  nPowMaxAdjustUp := 16
  nMinimumChainWork := 0x0000000000000000000000000000000000000000000000000007e9c0d0d38263
  spacingPos := by decide
  spacingLeTimespan := by decide
  windowPos := by decide
  windowFitsInt := by decide
  minDifficultyOfNoRetargeting := by decide
  exceptionsRelax _ hmem := nomatch hmem

/-- The parameters of `CTestNetParams`: as on the main network, with merged mining from height
1000 on, minimum-difficulty blocks allowed and no minimum chain work. -/
def testNetParams : Params where
  __ := mainParams
  nAuxpowStartHeight := 1000
  fPowAllowMinDifficultyBlocks := true
  nMinimumChainWork := 0
  minDifficultyOfNoRetargeting := by decide

/-- The parameters of `CRegTestParams` for a given `-auxpowactivationheight`, with the default
heights of the other deployments. -/
def regTestParams (auxpowStartHeight : Int) : Params where
  hashGenesisBlock := 0xc19a1b559b1ea55d7c5ee23031c6a06fb917c641ae896587f42a1847bf2a2e8b
  nSubsidyHalvingInterval := 20
  scriptFlagExceptions := []
  bip34Height := 1
  bip65Height := 1
  bip66Height := 1
  csvHeight := 1
  segwitHeight := 0
  nAuxpowStartHeight := auxpowStartHeight
  nAuxpowChainId := 8
  fStrictChainId := true
  powLimit := 0x0f0f0f0f0f0f0f0f0f0f0f0f0f0f0f0f0f0f0f0f0f0f0f0f0f0f0f0f0f0f0f0f
  fPowAllowMinDifficultyBlocks := true
  enforceBIP94 := true
  fPowNoRetargeting := true
  fPowGenesisScrypt := true
  nPowTargetSpacing := 60
  nPowTargetTimespan := 4 * 60 * 60
  nPowAllowMinDifficultyBlocksAfterHeight := none
  nPowAveragingWindow := 17
  nPowMaxAdjustDown := 0
  nPowMaxAdjustUp := 0
  nMinimumChainWork := 1
  spacingPos := by decide
  spacingLeTimespan := by decide
  windowPos := by decide
  windowFitsInt := by decide
  minDifficultyOfNoRetargeting := by decide
  exceptionsRelax _ hmem := nomatch hmem

end Tidecoin
