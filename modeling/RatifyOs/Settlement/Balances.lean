import RatifyOs.Data.Numeral
import RatifyOs.Data.Rounding
import RatifyOs.Kernel.Blame
import RatifyOs.Kernel.Fills
import RatifyOs.Pools.Instructions

/-! `SolanaRpc.readBalance`, and the differences of its answers that the gateway journals. -/
namespace RatifyOs.Settlement
open Async Data Data.Result Kernel
open Async.Program hiding pure throw reject

def TOKEN_PROGRAMS : List String := [Pools.TOKEN_PROGRAM_ID,Pools.TOKEN_2022_PROGRAM_ID]

/-- `parsed.info` of a token account, as far as it is read. -/
structure TokenAccInfo where
  mint : String
  amount : String
  deriving DecidableEq

/-- What one `Connection` answers while a balance is read; an error is a call that rejects. -/
structure Connection where
  isPublicKey : String → Bool
  getBalance : String → Except Failure Double
  getParsedTokenAccountsByOwner : String → String → String → Except Failure (List (Option TokenAccInfo))

namespace Connection
variable (c : Connection)

def publicKey (value : String) : Except Failure String :=
  if c.isPublicKey value then .ok value else .error (.other "Invalid public key input")

/-- `BigInt(x)` of a number. -/
def bigInt : Double → Except Failure ℤ
  | .finite q => if q.den = 1 then .ok q.num else .error (.other "not an integer")
  | _ => .error (.other "not an integer")

def bigIntOf (text : String) : Except Failure ℤ :=
  match Text.toBigInt text.toList with
  | some n => .ok n
  | none => .error (.other s!"Cannot convert {text} to a BigInt")

def getSolLamports (owner : String) : Except Failure ℤ := do
  let key ← c.publicKey owner
  let lamports ← c.getBalance key
  bigInt lamports

/-- An account without parsed data is passed over. -/
def addAccount (total : ℤ) : Option TokenAccInfo → Except Failure ℤ
  | none => return total
  | some info => do
    let amount ← bigIntOf info.amount
    return total + amount

/-- The accounts of one program; what the call rejects with is caught, and the program skipped. -/
def addProgram (owner mint : String) (total : ℤ) (programId : String) : Except Failure ℤ :=
  match c.getParsedTokenAccountsByOwner owner mint programId with
  | .error _ => return total
  | .ok accounts => accounts.foldlM addAccount total

def readBalance (owner mint : String) : Except Failure ℤ := do
  if mint = Pools.WSOL_MINT then c.getSolLamports owner
  else
    let ownerPk ← c.publicKey owner
    let mintPk ← c.publicKey mint
    TOKEN_PROGRAMS.foldlM (c.addProgram ownerPk mintPk) 0

end Connection

structure TokenAccount where
  owner : String
  mint : String
  programId : String
  amount : ℕ

/-- The accounts of a cluster at one time. -/
structure Ledger where
  accounts : List TokenAccount
  lamports : String → ℕ
  lamports_lt : ∀ owner, lamports owner < 2 ^ 64

namespace Ledger
variable (l : Ledger)

def accountsOf (owner mint programId : String) : List TokenAccount :=
  l.accounts.filter fun a => a.owner = owner ∧ a.mint = mint ∧ a.programId = programId

def held (owner mint programId : String) : ℤ := ((l.accountsOf owner mint programId).map fun a => (a.amount : ℤ)).sum

/-- The balance of a mint over its token programs; the wrapped mint stands for the native one. -/
def balance (owner mint : String) : ℤ :=
  if mint = Pools.WSOL_MINT then l.lamports owner else (TOKEN_PROGRAMS.map (l.held owner mint)).sum

end Ledger

/-- What a call that does not reject answers: a number of lamports, and the accounts of the owner and
mint under the program, in any order. -/
structure Serves (c : Connection) (l : Ledger) : Prop where
  lamports : ∀ owner x, c.getBalance owner = .ok x → x = .ofRat (l.lamports owner)
  accounts : ∀ owner mint programId infos, c.getParsedTokenAccountsByOwner owner mint programId = .ok infos →
    infos.Perm ((l.accountsOf owner mint programId).map fun a => some ⟨a.mint,toString a.amount⟩)

section Reads
variable {c : Connection} {l : Ledger} {owner mint programId : String} {total b : ℤ}

theorem bigInt_intCast (n : ℤ) : Connection.bigInt (.finite n) = .ok n := by
  rw [Connection.bigInt.eq_1,if_pos (Rat.den_intCast n),Rat.num_intCast]

/-- What a program adds to a total: what is held under it, or nothing where the call rejects. -/
def shown (c : Connection) (l : Ledger) (owner mint programId : String) : ℤ :=
  match c.getParsedTokenAccountsByOwner owner mint programId with
  | .error _ => 0
  | .ok _ => l.held owner mint programId

def missing (c : Connection) (l : Ledger) (owner mint : String) : ℤ :=
  if mint = Pools.WSOL_MINT then l.lamports owner - ⌊Double.rounded (l.lamports owner)⌋
  else (TOKEN_PROGRAMS.map fun programId => l.held owner mint programId - shown c l owner mint programId).sum

end Reads

section Journal
variable {d : Deployment} {intent : TradeIntent} {o : ExecuteOptions} {tradeId : String} {h : Log}

end Journal

/-- One read of a balance, at the time when the ledger is this one. -/
structure Reading where
  connection : Connection
  ledger : Ledger
  serves : Serves connection ledger

structure PairReading where
  input : Reading
  output : Reading

namespace PairReading
variable (r : PairReading) (owner inputMint outputMint : String)

def pair : Except Failure Pair := do
  let input ← r.input.connection.readBalance owner inputMint
  let output ← r.output.connection.readBalance owner outputMint
  return ⟨input,output⟩

def missing : Pair :=
  ⟨Settlement.missing r.input.connection r.input.ledger owner inputMint,
    Settlement.missing r.output.connection r.output.ledger owner outputMint⟩

end PairReading

namespace Sample

/-- A cluster where one wallet has so many lamports and so much of one mint. -/
def ledger (lamports amount : ℕ) (small : lamports < 2 ^ 64) : Ledger where
  accounts := [⟨"owner","mint",Pools.TOKEN_2022_PROGRAM_ID,amount⟩]
  lamports _ := lamports
  lamports_lt _ := small

def node (l : Ledger) (rejects : String → Bool) : Connection where
  isPublicKey _ := true
  getBalance owner := .ok (.ofRat (l.lamports owner))
  getParsedTokenAccountsByOwner owner mint programId :=
    if rejects programId then .error (.other "429 Too Many Requests")
    else .ok ((l.accountsOf owner mint programId).map fun a => some ⟨a.mint,toString a.amount⟩)

theorem node_serves (l : Ledger) (rejects : String → Bool) : Serves (node l rejects) l where
  lamports owner x answered := (Except.ok.inj answered).symm
  accounts owner mint programId infos answered := by
    unfold node at answered
    dsimp only at answered
    split_ifs at answered
    exact (Except.ok.inj answered) ▸ List.Perm.refl _

def reading (lamports amount : ℕ) (small : lamports < 2 ^ 64) : Reading :=
  ⟨node (ledger lamports amount small) fun _ => false,_,node_serves _ _⟩

def written (h : Log) : Option (JournalEvent × Log) :=
  match h with
  | ⟨.appendJournal event,.ok ()⟩ :: earlier => some (event,earlier)
  | _ => none

def swap : Gateway ExecuteResult × Log := Kernel.Sample.fill Kernel.Sample.intent ⟨3999000,1995⟩

def spent : PairReading := ⟨reading 3999000 1995 (by decide),reading 3999000 1995 (by decide)⟩

end Sample

end RatifyOs.Settlement
