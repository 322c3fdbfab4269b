import ConcordiumLedger.Common.Approvals
import ConcordiumLedger.Common.Isolation
import ConcordiumLedger.Common.ZeroAddress
import ConcordiumLedger.Governance.NumbersDisplayed
import ConcordiumLedger.Governance.Restarts
import ConcordiumLedger.Main.ConfigureDelegation
import ConcordiumLedger.Main.Restarts
import ConcordiumLedger.Main.SkippedScreens
import Mathlib.Data.List.Nodup

/-!
# Apps.Signatures

The transactions that the two applications sign, in runs of any commands of any instructions and
any presses. The signature of an exported public key is none of them.

* `main_sign_screens_bind`, `governance_sign_screens_bind` — a transaction signature is of what was
  hashed before its Sign screen came up, if no handler was called since.
* `main_signatures_isolated`, `governance_signatures_isolated` — it is of one session.
* `account_transactions_separate` — no two account transaction instructions sign the same bytes.
* `sessions_sign_once` — a session signs at most one transaction.
-/

namespace ConcordiumLedger

open CMem CProg CProg.Prog Transition

set_option synthInstance.maxSize 20000

variable {μ ν : Type}

/-! ## Sign screens -/

/-- At every press of a Sign step on whose screen no handler was called, nothing was hashed and no
path was read since that screen came up. -/
theorem main_sign_screens_bind (sdk : Sdk) (u : InstructionContext μ) (d : Device μ)
    (hh : d.shared.hash = hashed d.shared.log) (hd : offersSign d.shared.display = false)
    (events : List Event) :
    Always (step (mainApp sdk u))
      (fun d ev d' => (Unhandled d.shared → Binds sdk d ev d') ∧ KeepsScreen d d') d events :=
  sign_screens_bind rfl (mainApp_screened sdk u) (mainApp_framed sdk u) hh hd events

/-- The public information with two keys, up to the Sign screen. -/
def infoReviewed : List Event := [infoInitial, infoKey 1, .press 2, infoKey 2, infoThreshold]

/-- The loop refuses this command while another instruction is the current one. -/
def refusedCommand : Event := .command (sent insRegisterData 0 0 [])

/-- A command that the loop refuses leaves the screen and what it is bound to. -/
theorem main_sign_screens_bind_refused :
    ∃ d d', exec (step (mainApp zeroAddressSdk Contexts.layout)) bootedDevice
        (infoReviewed ++ [refusedCommand]) = some d ∧
      step (mainApp zeroAddressSdk Contexts.layout) d (.press 2) = some d' ∧
      d.shared.pressed 2 = .buildAndSignTransactionHash ∧
      Binds zeroAddressSdk d (.press 2) d' := by
  have hex : ((exec (step (mainApp zeroAddressSdk Contexts.layout)) bootedDevice
      (infoReviewed ++ [refusedCommand])).bind fun d =>
        (step (mainApp zeroAddressSdk Contexts.layout) d (.press 2)).map fun _ =>
          decide (d.shared.pressed 2 = .buildAndSignTransactionHash) && decide (Unhandled d.shared))
      = some true := by
    decide
  obtain ⟨d, hd, hmap⟩ := Option.bind_eq_some_iff.mp hex
  obtain ⟨d', hd', hfacts⟩ := Option.map_eq_some_iff.mp hmap
  simp only [Bool.and_eq_true, decide_eq_true_eq] at hfacts
  obtain ⟨hpressed, hun⟩ := hfacts
  refine ⟨d, d', hd, hd', hpressed, ?_⟩
  exact ((main_sign_screens_bind zeroAddressSdk Contexts.layout bootedDevice rfl (by decide) _).last
    hd hd').1 hun

/-- The refused command has ended the session. The next one starts the hash anew, and the Sign step
that is still up signs what it has hashed. -/
def screenReused : List Event := infoReviewed ++ [refusedCommand, infoInitial]

theorem sign_screen_rehashed :
    ¬ Always (step (mainApp zeroAddressSdk Contexts.layout))
      (fun d ev d' => Binds zeroAddressSdk d ev d') bootedDevice
      (screenReused ++ [.press 2]) := by
  have hex : ((exec (step (mainApp zeroAddressSdk Contexts.layout)) bootedDevice screenReused).bind
      fun d =>
        (step (mainApp zeroAddressSdk Contexts.layout) d (.press 2)).map fun _ =>
          decide (d.shared.pressed 2 = .buildAndSignTransactionHash) &&
            (sinceScreen d.shared.log).any Action.touches) = some true := by
    decide
  obtain ⟨d, hd, hmap⟩ := Option.bind_eq_some_iff.mp hex
  obtain ⟨d', hd', hfacts⟩ := Option.map_eq_some_iff.mp hmap
  simp only [Bool.and_eq_true, decide_eq_true_eq] at hfacts
  obtain ⟨hpressed, htouched⟩ := hfacts
  intro h
  obtain ⟨-, hsince⟩ := (h.last hd hd').pressed 2 rfl hpressed
  obtain ⟨a, ha, ht⟩ := List.any_eq_true.mp htouched
  rw [hsince a ha] at ht
  cases ht

theorem governance_sign_screens_bind (sdk : Sdk) (u : GovernanceContext μ ν) (d : Device μ)
    (hh : d.shared.hash = hashed d.shared.log) (hd : offersSign d.shared.display = false)
    (events : List Event) :
    Always (step (governanceApp sdk u))
      (fun d ev d' => (Unhandled d.shared → Binds sdk d ev d') ∧ KeepsScreen d d') d events :=
  sign_screens_bind rfl (governanceApp_screened sdk u 0) (governanceApp_framed sdk u) hh hd events

/-- The user signs one block energy limit after declining another one. -/
def signedLimit : List Event :=
  NumericField.declinedLimit ++
    [.command (NumericField.blockEnergyLimitCommand [0, 0, 0, 0, 0, 0, 0, 7]), .press 3]

theorem governance_sign_screens_bind_limit :
    Always (step (governanceApp zeroAddressSdk GovernanceContexts.layout))
      (fun d ev d' => (Unhandled d.shared → Binds zeroAddressSdk d ev d') ∧ KeepsScreen d d')
      bootedGovernance signedLimit :=
  governance_sign_screens_bind zeroAddressSdk GovernanceContexts.layout bootedGovernance rfl
    (by decide) _

/-! ## Sessions -/

/-- The instructions of an account transaction, with the bytes at the place of its kind. A credential
update is left out: in the middle of it the handler of another instruction runs. -/
def accountKinds : List (UInt8 × List UInt8) :=
  (transactionKinds.filter (·.1 ≠ insSignUpdateCredential)).map fun p => (p.1, [p.2])

theorem mem_accountKinds {i : UInt8} {ks : List UInt8} (h : (i, ks) ∈ accountKinds) :
    ∃ k, ks = [k] ∧ (i, k) ∈ transactionKinds ∧ i ≠ insSignUpdateCredential := by
  obtain ⟨⟨j, k⟩, hmem, heq⟩ := List.mem_map.mp h
  obtain ⟨hk, hne⟩ := List.mem_filter.mp hmem
  cases heq
  exact ⟨k, rfl, hk, by simpa using hne⟩

theorem exportsKeys_closes (sdk : Sdk) (u : InstructionContext μ) (c : Apdu) (b : Bool)
    (h : exportsKeys c.ins) :
    Ends Closes Touched (Shown Closes) (Ended Closes) (mainHandler sdk u c b) := by
  have hkey : Permits Closes (.own .sendPublicKey) := ⟨by decide⟩
  have hidle : Permits Closes (.own .uiIdle) := ⟨by decide⟩
  have hexit : Permits Closes (.own .osSchedExit) := ⟨by decide⟩
  have hsuccess : Permits Closes (.own .sendSuccess) := ⟨by decide⟩
  have hexport : Permits Closes (.own .exportPrivateKey) := ⟨by decide⟩
  unfold mainHandler
  rcases h with h | h | h
  · rw [h]
    exact inferInstanceAs (Ends _ _ _ _ (Fw.on u.exportPublicKeyContext
      (handleGetPublicKey sdk c.cdata c.p1 c.p2)))
  · rw [h]
    exact inferInstanceAs (Ends _ _ _ _ (Fw.on u.verifyAddressContext
      (handleVerifyAddress sdk c.cdata)))
  · rw [h]
    exact inferInstanceAs (Ends _ _ _ _ (Fw.on u.exportPrivateKeyContext
      (handleExportPrivateKey c.cdata c.p1 c.p2)))

theorem mainApp_isolating (sdk : Sdk) (u : InstructionContext μ) :
    Isolating (mainApp sdk u) (fun i => ¬ exportsKeys i) StartsInitial 60 accountKinds where
  framed := mainApp_framed sdk u
  restarts c hs hi := mainHandler_restarts hs hi
  heads c ks hk hi := by
    obtain ⟨k, rfl, hk, -⟩ := mem_accountKinds hk
    exact mainHandler_heads hk hi
  keepsHead c ks hk := by
    obtain ⟨k, rfl, hk, hne⟩ := mem_accountKinds hk
    exact mainHandler_keepsHead hk hne
  closes c b h := exportsKeys_closes sdk u c b (not_not.mp h)
  appends cb hcb := by
    have hshows : Shows AnyScreen Appends Appends (mainOwnCallback sdk u cb) :=
      mainOwnCallback_shows sdk u cb
    cases cb <;> first | exact hshows | cases hcb
  closing cb hcb hc := by
    have hidle : Permits Closes (.own .uiIdle) := ⟨by decide⟩
    have hexit : Permits Closes (.own .osSchedExit) := ⟨by decide⟩
    cases cb with
    | sendPublicKey =>
      exact inferInstanceAs (Shows _ _ _ (Fw.on u.exportPublicKeyContext (sendPublicKey sdk true)))
    | exportPrivateKey =>
      exact inferInstanceAs (Shows _ _ _ (Fw.on u.exportPrivateKeyContext (exportPrivateKey sdk)))
    | _ => first | exact absurd hc (by decide) | cases hcb

theorem governanceApp_isolating (sdk : Sdk) (u : GovernanceContext μ ν) :
    Isolating (governanceApp sdk u) (· ≠ governanceInsGetPublicKey) (fun _ => True) 28
      updateTypes where
  framed := governanceApp_framed sdk u
  restarts c hs _ := governanceHandler_restarts hs
  heads c ks hk _ := governanceHandler_heads hk
  keepsHead c ks hk := governanceHandler_keepsHead hk
  closes c b h := by
    have hkey : Permits Closes (.own .sendPublicKey) := ⟨by decide⟩
    have hidle : Permits Closes (.own .uiIdle) := ⟨by decide⟩
    have hexit : Permits Closes (.own .osSchedExit) := ⟨by decide⟩
    show Ends Closes Touched (Shown Closes) (Ended Closes) (governanceHandler sdk u c b)
    unfold governanceHandler
    rw [not_not.mp h]
    exact inferInstanceAs (Ends _ _ _ _ (Fw.on u.exportPublicKeyContext
      (handleGetPublicKey sdk c.cdata c.p1 c.p2)))
  appends cb hcb := by
    have hshows : Shows AnyScreen Appends Appends (governanceOwnCallback sdk u cb) :=
      governanceOwnCallback_shows sdk u cb
    cases cb <;> first | exact hshows | cases hcb
  closing cb hcb hc := by
    have hidle : Permits Closes (.own .uiIdle) := ⟨by decide⟩
    have hexit : Permits Closes (.own .osSchedExit) := ⟨by decide⟩
    cases cb with
    | sendPublicKey =>
      exact inferInstanceAs (Shows _ _ _ (Fw.on u.exportPublicKeyContext (sendPublicKey sdk true)))
    | exportPrivateKey =>
      exact inferInstanceAs (Shows _ _ _ (Pure.pure ⟨⟩ : Fw μ PUnit))
    | _ => first | exact absurd hc (by decide) | cases hcb

/-- Each transaction signature is of bytes hashed in one session, after its first packet has read
the path and started the hash anew, and the kind among them is the one of the instruction of that
session. -/
theorem main_signatures_isolated (sdk : Sdk) (u : InstructionContext μ) (d : Device μ)
    (hd : Resting d) (events : List Event)
    (h : Always (step (mainApp sdk u)) (fun d ev _ => Orderly StartsInitial d ev) d events) :
    Always (step (mainApp sdk u)) (fun d _ d' => ∀ path input,
      .signed path input ∈ newActions d.shared d'.shared →
        ∃ i, SignedInSession (fun i => ¬ exportsKeys i) 60 accountKinds d i input) d events :=
  signatures_isolated (mainApp_isolating sdk u) rfl (mainApp_screened sdk u)
    (mainApp_framed sdk u) (mainApp_framed sdk u) hd h

theorem bootedDevice_resting : Resting bootedDevice := ⟨rfl, by decide, rfl⟩

/-- The session is started again after a command of another instruction has ended it. -/
def restartedInfo : List Event :=
  [infoInitial, infoKey 3, .command (sent insRegisterData 0 0 []), infoInitial, infoKey 1, .press 2,
    infoKey 2, infoThreshold, .press 2]

theorem main_signatures_isolated_restarted :
    Always (step (mainApp zeroAddressSdk Contexts.layout)) (fun d _ d' => ∀ path input,
      .signed path input ∈ newActions d.shared d'.shared →
        ∃ i, SignedInSession (fun i => ¬ exportsKeys i) 60 accountKinds d i input)
      bootedDevice restartedInfo :=
  main_signatures_isolated zeroAddressSdk Contexts.layout bootedDevice bootedDevice_resting _
    (by decide)

theorem governance_signatures_isolated (sdk : Sdk) (u : GovernanceContext μ ν) (d : Device μ)
    (hd : Resting d) (events : List Event)
    (h : Always (step (governanceApp sdk u)) (fun d ev _ => Orderly (fun _ => True) d ev) d events) :
    Always (step (governanceApp sdk u)) (fun d _ d' => ∀ path input,
      .signed path input ∈ newActions d.shared d'.shared →
        ∃ i, SignedInSession (· ≠ governanceInsGetPublicKey) 28 updateTypes d i input) d events :=
  signatures_isolated (governanceApp_isolating sdk u) rfl (governanceApp_screened sdk u 0)
    (governanceApp_framed sdk u) (governanceApp_framed sdk u) hd h

theorem bootedGovernance_resting : Resting bootedGovernance := ⟨rfl, by decide, rfl⟩

theorem governance_signatures_isolated_limit :
    Always (step (governanceApp zeroAddressSdk GovernanceContexts.layout)) (fun d _ d' =>
      ∀ path input, .signed path input ∈ newActions d.shared d'.shared →
        ∃ i, SignedInSession (· ≠ governanceInsGetPublicKey) 28 updateTypes d i input)
      bootedGovernance signedLimit :=
  governance_signatures_isolated zeroAddressSdk GovernanceContexts.layout bootedGovernance
    bootedGovernance_resting _ (by decide)

/-! ## Two runs -/

theorem SignsIn.main_head {sdk : Sdk} {u : InstructionContext μ} {d : Device μ} {events : List Event}
    {i : UInt8} {ks input : List UInt8} (hs : SignsIn (mainApp sdk u) d events i input)
    (hd : Resting d)
    (h : Always (step (mainApp sdk u)) (fun d ev _ => Orderly StartsInitial d ev) d events)
    (hks : (i, ks) ∈ accountKinds) : ∃ b ∈ ks, input[60]? = some b :=
  hs.head (mainApp_isolating sdk u) rfl (mainApp_screened sdk u) (mainApp_framed sdk u)
    (mainApp_framed sdk u) hd h hks

theorem SignsIn.governance_head {sdk : Sdk} {u : GovernanceContext μ ν} {d : Device μ}
    {events : List Event} {i : UInt8} {ks input : List UInt8}
    (hs : SignsIn (governanceApp sdk u) d events i input) (hd : Resting d)
    (h : Always (step (governanceApp sdk u)) (fun d ev _ => Orderly (fun _ => True) d ev) d events)
    (hks : (i, ks) ∈ updateTypes) : ∃ b ∈ ks, input[28]? = some b :=
  hs.head (governanceApp_isolating sdk u) rfl (governanceApp_screened sdk u 0)
    (governanceApp_framed sdk u) (governanceApp_framed sdk u) hd h hks

theorem transactionKinds_nodup : (transactionKinds.map Prod.snd).Nodup := by decide

/-- What is signed in a session of one account transaction instruction is not signed in any session
of another one, on whatever device. -/
theorem account_transactions_separate (sdk sdk' : Sdk) (u : InstructionContext μ)
    (v : InstructionContext ν) (d : Device μ) (d' : Device ν) (hd : Resting d)
    (hd' : Resting d') (events events' : List Event)
    (h : Always (step (mainApp sdk u)) (fun d ev _ => Orderly StartsInitial d ev) d events)
    (h' : Always (step (mainApp sdk' v)) (fun d ev _ => Orderly StartsInitial d ev) d' events')
    {i j : UInt8} {ks ls : List UInt8} (hks : (i, ks) ∈ accountKinds) (hls : (j, ls) ∈ accountKinds)
    (hne : i ≠ j) {input : List UInt8} (hs : SignsIn (mainApp sdk u) d events i input) :
    ¬ SignsIn (mainApp sdk' v) d' events' j input := by
  intro hs'
  obtain ⟨b, hb, hn⟩ := hs.main_head hd h hks
  obtain ⟨b', hb', hn'⟩ := hs'.main_head hd' h' hls
  obtain ⟨k, rfl, hk, -⟩ := mem_accountKinds hks
  obtain ⟨l, rfl, hl, -⟩ := mem_accountKinds hls
  rw [List.mem_singleton.mp hb] at hn
  rw [List.mem_singleton.mp hb', hn] at hn'
  have heq := List.inj_on_of_nodup_map transactionKinds_nodup hk hl (Option.some.inj hn')
  exact hne (Prod.mk.inj heq).1

/-- A shielded amount of zero, with an empty path and a header of zeroes. -/
def shieldCommand : Apdu :=
  sent insTransferToEncrypted 0 0
    ([0] ++ List.replicate 60 0 ++ [SignTransferToEncrypted.transferToEncrypted] ++
      List.replicate 8 0)

def shieldInput : List UInt8 :=
  List.replicate 60 0 ++ [SignTransferToEncrypted.transferToEncrypted] ++ List.replicate 8 0

theorem shield_signs : SignsIn (mainApp zeroAddressSdk Contexts.layout) bootedDevice
    [.command shieldCommand, .press 3] insTransferToEncrypted shieldInput := by
  have hex : ((exec (step (mainApp zeroAddressSdk Contexts.layout)) bootedDevice
      [.command shieldCommand]).any fun t =>
        (step (mainApp zeroAddressSdk Contexts.layout) t (.press 3)).any fun u =>
          decide (.signed [] shieldInput ∈ newActions t.shared u.shared ∧
            Fresh insTransferToEncrypted t.shared)) = true := by
    delta mainApp mainHandler
    simp only [handleSignTransferToEncrypted, hashAccountTransactionHeaderAndKind,
      addressText_zeroAddressSdk]
    decide
  obtain ⟨t, ht, hex⟩ := (Option.any_eq_true _ _).mp hex
  obtain ⟨v, hv, hex⟩ := (Option.any_eq_true _ _).mp hex
  obtain ⟨hmem, hfresh⟩ := of_decide_eq_true hex
  exact ⟨_, _, t, v, [], List.prefix_rfl, ht, hv, hmem, hfresh⟩

/-- The restaking of a delegator signs other bytes. -/
theorem account_transactions_separate_restake :
    ¬ SignsIn (mainApp zeroAddressSdk Contexts.layout) bootedDevice
      [.command (SignConfigureDelegation.restakeCommand 0), .press 3] insConfigureDelegation
      shieldInput := by
  have hshield : Always (step (mainApp zeroAddressSdk Contexts.layout))
      (fun d ev _ => Orderly StartsInitial d ev) bootedDevice
      [.command shieldCommand, .press 3] := by
    delta mainApp mainHandler
    simp only [handleSignTransferToEncrypted, hashAccountTransactionHeaderAndKind,
      addressText_zeroAddressSdk]
    decide
  have hrestake : Always (step (mainApp zeroAddressSdk Contexts.layout))
      (fun d ev _ => Orderly StartsInitial d ev) bootedDevice
      [.command (SignConfigureDelegation.restakeCommand 0), .press 3] := by
    delta mainApp mainHandler
    simp only [handleSignConfigureDelegation, hashAccountTransactionHeaderAndKind,
      addressText_zeroAddressSdk]
    decide
  exact account_transactions_separate zeroAddressSdk zeroAddressSdk Contexts.layout Contexts.layout
    bootedDevice bootedDevice bootedDevice_resting bootedDevice_resting _ _ hshield hrestake
    (show (insTransferToEncrypted, [SignTransferToEncrypted.transferToEncrypted]) ∈ accountKinds by
      decide)
    (show (insConfigureDelegation, [SignConfigureDelegation.configureDelegation]) ∈ accountKinds by
      decide) (by decide) shield_signs

/-- What two update instructions both sign is of an update type that both accept. -/
theorem updates_separate (sdk sdk' : Sdk) {γ γ' : Type} (u : GovernanceContext μ γ)
    (v : GovernanceContext ν γ') (d : Device μ) (d' : Device ν) (hd : Resting d)
    (hd' : Resting d') (events events' : List Event)
    (h : Always (step (governanceApp sdk u)) (fun d ev _ => Orderly (fun _ => True) d ev) d events)
    (h' : Always (step (governanceApp sdk' v)) (fun d ev _ => Orderly (fun _ => True) d ev) d'
      events')
    {i j : UInt8} {ks ls : List UInt8} (hks : (i, ks) ∈ updateTypes) (hls : (j, ls) ∈ updateTypes)
    (hne : ∀ b ∈ ks, b ∉ ls) {input : List UInt8}
    (hs : SignsIn (governanceApp sdk u) d events i input) :
    ¬ SignsIn (governanceApp sdk' v) d' events' j input := by
  intro hs'
  obtain ⟨b, hb, hn⟩ := hs.governance_head hd h hks
  obtain ⟨b', hb', hn'⟩ := hs'.governance_head hd' h' hls
  rw [hn] at hn'
  cases hn'
  exact hne b hb hb'

def limitInput (value : List UInt8) : List UInt8 :=
  List.replicate 28 0 ++ [UpdateType.blockEnergyLimit] ++ value

theorem limit_signs : SignsIn (governanceApp zeroAddressSdk GovernanceContexts.layout)
    bootedGovernance signedLimit insUpdateBlockEnergyLimit (limitInput [0, 0, 0, 0, 0, 0, 0, 7]) := by
  have hex : ((exec (step (governanceApp zeroAddressSdk GovernanceContexts.layout))
      bootedGovernance (signedLimit.take 3)).any fun t =>
        (step (governanceApp zeroAddressSdk GovernanceContexts.layout) t (.press 3)).any fun u =>
          decide (.signed [] (limitInput [0, 0, 0, 0, 0, 0, 0, 7]) ∈ newActions t.shared u.shared ∧
            Fresh insUpdateBlockEnergyLimit t.shared)) = true := by
    decide
  obtain ⟨t, ht, hex⟩ := (Option.any_eq_true _ _).mp hex
  obtain ⟨v, hv, hex⟩ := (Option.any_eq_true _ _).mp hex
  obtain ⟨hmem, hfresh⟩ := of_decide_eq_true hex
  exact ⟨_, _, t, v, [], List.prefix_rfl, ht, hv, hmem, hfresh⟩

/-- The time between blocks is another update. -/
theorem updates_separate_min_block_time :
    ¬ SignsIn (governanceApp zeroAddressSdk GovernanceContexts.layout) bootedGovernance
      [.command (sent insUpdateMinBlockTime 0 0
        ([0] ++ List.replicate 28 0 ++ [UpdateType.minBlockTime] ++ List.replicate 8 0)), .press 3]
      insUpdateMinBlockTime (limitInput [0, 0, 0, 0, 0, 0, 0, 7]) :=
  updates_separate zeroAddressSdk zeroAddressSdk GovernanceContexts.layout GovernanceContexts.layout
    bootedGovernance bootedGovernance bootedGovernance_resting bootedGovernance_resting _ _
    (by decide) (by decide)
    (show (insUpdateBlockEnergyLimit, [UpdateType.blockEnergyLimit]) ∈ updateTypes by decide)
    (show (insUpdateMinBlockTime, [UpdateType.minBlockTime]) ∈ updateTypes by decide)
    (by simp [UpdateType.blockEnergyLimit, UpdateType.minBlockTime]) limit_signs

/-! ## Approvals -/

/-- Whatever commands and presses come, in whatever order and with whatever errors in between, no
session signs two transactions, and a session that has signed one is over. -/
theorem sessions_sign_once {ξ : Type} (sdk : Sdk) (u : InstructionContext μ)
    (v : GovernanceContext ξ ν) (d : Device μ) (e : Device ξ) (hd : Booted d) (he : Booted e)
    (events : List Event) :
    Always (step (mainApp sdk u)) (fun _ _ d' => SignsOnce d'.shared) d events ∧
      Always (step (governanceApp sdk v)) (fun _ _ e' => SignsOnce e'.shared) e events :=
  ⟨signs_once rfl (mainApp_screened sdk u) hd events,
    signs_once rfl (governanceApp_screened sdk v 0) he events⟩

/-- The user presses the Sign step twice. -/
theorem sessions_sign_once_pressed_again :
    let events := [infoInitial, infoKey 1, .press 2, infoKey 2, infoThreshold, .press 2, .press 2]
    Always (step (mainApp zeroAddressSdk Contexts.layout)) (fun _ _ d' => SignsOnce d'.shared)
        bootedDevice events ∧
      Always (step (governanceApp zeroAddressSdk GovernanceContexts.layout))
        (fun _ _ e' => SignsOnce e'.shared) bootedGovernance events :=
  sessions_sign_once zeroAddressSdk Contexts.layout GovernanceContexts.layout bootedDevice
    bootedGovernance bootedDevice_booted bootedGovernance_booted _

end ConcordiumLedger
