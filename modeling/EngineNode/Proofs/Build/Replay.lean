import EngineNode.Build.Generate
import EngineNode.Proofs.Chain.Insert

/-!
Generated blocks can be executed again.

A block is generated in one session, in which transactions of the pool may be refused. The importer
runs the transactions that were left over in a session of its own. Both come to the same, because a
refused transaction leaves the session as it was.

* `Generator.generate_eq_ok`: how a generated block comes about (`Generator.Opens`,
  `Generator.Filling.Replays`, `Generator.close`).
* `Generator.Generated.extends`: a chain that stores the parent with its state accepts the block.
-/

namespace EngineNode

/-! ### Sessions -/

namespace Session

variable {s s' : Session}

theorem applyAll_concat (s : Session) (transactions : List Transaction) (tx : Transaction) :
    s.applyAll (transactions ++ [tx]) = s.applyAll transactions >>= fun s' => s'.apply tx := by
  rw [applyAll, List.foldlM_append]
  simp only [List.foldlM_cons, List.foldlM_nil, bind_pure]
  rfl

/-- The limit on blobs is kept. -/
theorem blobGasUsed_le_of_applyAll {transactions : List Transaction}
    (fits : s.blobGasUsed ≤ maxBlobGas) (applied : s.applyAll transactions = .ok s') :
    s'.blobGasUsed ≤ maxBlobGas := by
  induction transactions generalizing s with
  | nil =>
      cases applied
      exact fits
  | cons tx rest ih =>
      obtain ⟨next, first, others⟩ := bind_eq_ok_iff.mp applied
      obtain ⟨_, -, -, bounded, rfl⟩ := apply_eq_ok first
      exact ih bounded others

theorem blobGasUsed_le_of_begin {parent : Header} {env : BlockEnv}
    {transactions : List Transaction} (begun : Session.begin parent env = .ok s)
    (applied : s.applyAll transactions = .ok s') : s'.blobGasUsed ≤ maxBlobGas := by
  obtain rfl := eq_of_begin begun
  exact blobGasUsed_le_of_applyAll (Nat.zero_le _) applied

end Session

/-! ### Generating -/

namespace Generator

variable {g : Generator} {plan : BlockPlan}

/-- A header that a plan opens a block with. Its fields that are not listed have their values by
default until the block is closed. -/
structure Opens (g : Generator) (plan : BlockPlan) (header : Header) : Prop where
  later : plan.parent.timestamp < plan.timestamp
  gasLimit : g.gasLimit plan = .ok header.gasLimit
  extraData : g.extraData plan = .ok header.extraData
  withdrawals : g.config.isShanghai plan.timestamp = true → plan.withdrawals.isSome
  number : nextNumber? plan.parent.number = some header.number
  baseFee : ∃ fee, nextBaseFee g.config plan.parent plan.timestamp = some fee ∧
    header.baseFeePerGas = some fee
  excessBlobGas : header.excessBlobGas.isSome = g.config.isCancun plan.timestamp
  fields : header = {
    parentHash := plan.parent.hash
    feeRecipient := plan.feeRecipient
    number := header.number
    gasLimit := header.gasLimit
    timestamp := plan.timestamp
    extraData := header.extraData
    mixHash := plan.random
    baseFeePerGas := header.baseFeePerGas
    excessBlobGas := header.excessBlobGas
    parentBeaconBlockRoot :=
      if g.config.isCancun plan.timestamp then some (plan.beaconRoot.getD (.zero 32)) else none }

theorem openHeader_eq_ok {header : Header} (opened : g.openHeader plan = .ok header) :
    g.Opens plan header := by
  unfold openHeader at opened
  by_cases later : plan.parent.timestamp < plan.timestamp
  · simp only [later, if_true, pure_eq_ok] at opened
    obtain ⟨gasLimit, hgasLimit, opened⟩ := bind_eq_ok_iff.mp opened
    obtain ⟨extraData, hextraData, opened⟩ := bind_eq_ok_iff.mp opened
    by_cases missing : g.config.isShanghai plan.timestamp ∧ plan.withdrawals.isNone
    · simp [missing] at opened
    · simp only [missing, if_false] at opened
      split at opened
      · rename_i number baseFee hnumber hbaseFee
        by_cases overflow :
            g.config.isCancun plan.timestamp ∧ (nextExcessBlobGas plan.parent).isNone
        · simp [overflow] at opened
        · simp only [overflow, if_false, Except.ok.injEq] at opened
          subst opened
          refine ⟨later, hgasLimit, hextraData, ?_, hnumber, ⟨baseFee, hbaseFee, rfl⟩, ?_, rfl⟩
          · intro shanghai
            rw [Option.isSome_iff_ne_none]
            intro absent
            exact missing ⟨shanghai, by rw [absent]; rfl⟩
          · cases cancun : g.config.isCancun plan.timestamp with
            | false => simp
            | true =>
                cases computed : nextExcessBlobGas plan.parent with
                | none => exact absurd ⟨cancun, by rw [computed]; rfl⟩ overflow
                | some excess => simp
      · cases opened
  · simp [later] at opened

/-- Applying what the plan demands is applying transactions. -/
theorem applyDemanded_eq_ok_iff {start session : Session} {transactions : List Transaction} :
    applyDemanded start transactions = .ok session ↔ start.applyAll transactions = .ok session := by
  induction transactions generalizing start with
  | nil => simp [applyDemanded, Session.applyAll]
  | cons tx rest ih =>
      simp only [applyDemanded, Session.applyAll, List.foldlM_cons]
      cases start.apply tx with
      | ok next => exact ih
      | error e => constructor <;> intro applied <;> cases applied

/-- Applying the transactions of a filled block alone comes to its session. -/
def Filling.Replays (start : Session) (f : Filling) : Prop :=
  start.applyAll f.included = .ok f.session

/-- **Filling a block keeps it replayable**: a transaction that is refused leaves no trace. -/
theorem fill_replays {start : Session} {gasLimit : UInt64} {f : Filling}
    (replays : f.Replays start) (pool : List Transaction) :
    (g.fill gasLimit f pool).Replays start := by
  induction pool generalizing f with
  | nil => exact replays
  | cons tx rest ih =>
      rw [fill]
      split
      · exact replays
      · split
        · exact ih replays
        · cases applied : f.session.apply tx with
          | ok session =>
              refine ih ?_
              rw [Filling.Replays, Session.applyAll_concat, replays, ok_bind, applied]
          | error e =>
              dsimp only
              split
              · exact ih replays
              · exact ih replays

/-- A block comes about from a plan: a header is opened, transactions are applied to the parent, and
what they come to is written into the header. -/
def Generated (g : Generator) (plan : BlockPlan) (built : BuiltBlock) : Prop :=
  ∃ header start f, g.Opens plan header ∧
    Session.begin plan.parent (.ofHeader header) = .ok start ∧ f.Replays start ∧
      built = g.close plan header f

/-- A block that holds what the plan demands and nothing else yet. -/
def Filling.demanded (plan : BlockPlan) (session : Session) : Filling where
  session
  included := plan.transactions
  dataSize := plan.transactions.foldr (fun tx size => tx.dataSize + size) 0

/-- The demanded transactions are applied first. Those of the pool may follow them. -/
theorem generate_inversion {usePool : Bool} {built : BuiltBlock} {logs : List LogEntry}
    (generated : g.generate plan usePool = .ok (built, logs)) :
    ∃ header start session, g.Opens plan header ∧
      Session.begin plan.parent (.ofHeader header) = .ok start ∧
      start.applyAll plan.transactions = .ok session ∧
      built = g.close plan header (if usePool then
        g.fill header.gasLimit (.demanded plan session) g.pool.transactions
        else .demanded plan session) := by
  unfold generate at generated
  obtain ⟨header, opened, generated⟩ := bind_eq_ok_iff.mp generated
  cases begun : Session.begin plan.parent (.ofHeader header) with
  | error e => simp [begun] at generated
  | ok start =>
      simp only [begun] at generated
      obtain ⟨session, demanded, generated⟩ := bind_eq_ok_iff.mp generated
      cases generated
      exact ⟨header, start, session, openHeader_eq_ok opened, begun,
        applyDemanded_eq_ok_iff.mp demanded, rfl⟩

/-- **How a generated block comes about.** -/
theorem generate_eq_ok {usePool : Bool} {built : BuiltBlock} {logs : List LogEntry}
    (generated : g.generate plan usePool = .ok (built, logs)) : g.Generated plan built := by
  obtain ⟨header, start, session, opens, begun, demanded, rfl⟩ := generate_inversion generated
  refine ⟨header, start, _, opens, begun, ?_, rfl⟩
  have replays : (Filling.demanded plan session).Replays start := demanded
  cases usePool with
  | false => exact replays
  | true => exact fill_replays replays _

/-! ### What is said of a generated block -/

section Close

variable {header : Header} {start : Session} {f : Filling}

theorem close_withdrawals (g : Generator) (plan : BlockPlan) (header : Header) (f : Filling) :
    (g.close plan header f).block.withdrawals.getD [] =
      if g.config.isShanghai plan.timestamp then plan.withdrawals.getD [] else [] := by
  unfold close Block.withdrawals
  cases g.config.isShanghai plan.timestamp <;> rfl

/-- Executing the block that was closed takes the steps of the session that filled it. -/
theorem close_executesTo (begun : Session.begin plan.parent (.ofHeader header) = .ok start)
    (replays : f.Replays start) :
    (g.close plan header f).block.ExecutesTo plan.parent f.session :=
  ⟨start, begun, replays⟩

/-- The header of the block that was closed says what the session came to. The numbers fit in their
width: gas is limited by the header, blob gas by the limit on blobs. -/
theorem close_matches (begun : Session.begin plan.parent (.ofHeader header) = .ok start)
    (replays : f.Replays start) (wantWitness : Bool) :
    (f.session.finish ((g.close plan header f).block.withdrawals.getD []) wantWitness).Matches
      (g.close plan header f).block.header := by
  have executes := close_executesTo (g := g) begun replays
  have gas : f.session.gasUsed < UInt64.size :=
    Nat.lt_of_le_of_lt executes.gasUsed_le (UInt64.toNat_lt _)
  have blobs : f.session.blobGasUsed < UInt64.size :=
    Nat.lt_of_le_of_lt (Session.blobGasUsed_le_of_begin begun replays) (by decide)
  rw [close_withdrawals]
  refine ⟨(UInt64.toNat_ofNat_of_lt gas).symm, ?_, rfl, rfl⟩
  intro given present
  cases cancun : g.config.isCancun plan.timestamp with
  | false => simp [close, cancun] at present
  | true =>
      simp only [close, cancun, if_true, Option.some.injEq] at present
      rw [← present]
      exact (UInt64.toNat_ofNat_of_lt blobs).symm

end Close

/-- **A generated block extends the parent of its plan.** -/
theorem Generated.extends {built : BuiltBlock} (generated : g.Generated plan built) :
    built.block.Extends g.config plan.parent := by
  obtain ⟨header, start, f, opens, begun, replays, rfl⟩ := generated
  have timestamp : header.timestamp = plan.timestamp := by rw [opens.fields]
  refine ⟨⟨nextNumber?_eq_some_iff.mp opens.number, ?_, ?_⟩, f.session,
    close_executesTo begun replays, close_matches begun replays⟩
  · show plan.parent.timestamp < header.timestamp
    rw [timestamp]
    exact opens.later
  · show ∃ fee, nextBaseFee g.config plan.parent header.timestamp = some fee ∧
      header.baseFeePerGas = some fee
    rw [timestamp]
    exact opens.baseFee

theorem Generated.parentHash {built : BuiltBlock} (generated : g.Generated plan built) :
    built.block.parentHash = plan.parent.hash := by
  obtain ⟨header, start, f, opens, -, -, rfl⟩ := generated
  show header.parentHash = plan.parent.hash
  rw [opens.fields]

end Generator

end EngineNode
