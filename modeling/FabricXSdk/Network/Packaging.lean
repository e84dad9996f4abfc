import FabricXSdk.Blocks.Parser
import FabricXSdk.Lib.KeepFirst
import FabricXSdk.Network.Packager

/-!
# What packaging returns

One lemma for each part of `CreateTx`: the loop over the responses, the choice of
the endorsements, the transaction and the channel header.
-/

namespace FabricXSdk.Network.FabricX

open Golang Blocks Endorsement KeepFirst
open Golang.Outcome (ErrorsIn errorsIn_ok errorsIn_error errorsIn_deref errorsIn_failIf
  errorsIn_ofExcept)

section Responses

/-- A response with a status `CreateTx` accepts. -/
def Successful (r : Proto.ProposalResponse) : Prop :=
  ∃ response, r.response = some response ∧ 200 ≤ response.status ∧ response.status < 400

theorem checkResponses_cons_ok {a1 : Option Bytes} {r : Proto.ProposalResponse}
    {rest : List Proto.ProposalResponse} {a : Bytes}
    (h : checkResponses a1 (r :: rest) = .ok a) :
    Successful r ∧ (∀ b, a1 = some b → r.payload = b) ∧
      checkResponses (some r.payload) rest = .ok a := by
  simp only [checkResponses, Outcome.bind_eq_ok] at h
  obtain ⟨response, hresponse, h⟩ := h
  rw [Outcome.deref_eq_ok] at hresponse
  split at h
  · cases h
  · rename_i hstatus
    have hok : Successful r := ⟨response, hresponse, by omega, by omega⟩
    split at h
    · exact ⟨hok, by simp, h⟩
    · rename_i b
      split at h
      · rename_i hb
        subst hb
        exact ⟨hok, fun b hb => Option.some.inj hb, h⟩
      · cases h

/-- A loop that ends without error has seen successful responses with one payload. -/
theorem checkResponses_some_ok {b a : Bytes} {resps : List Proto.ProposalResponse}
    (h : checkResponses (some b) resps = .ok a) :
    a = b ∧ ∀ r ∈ resps, Successful r ∧ r.payload = b := by
  induction resps with
  | nil =>
      cases h
      simp
  | cons r rest ih =>
      obtain ⟨hok, hpayload, hrest⟩ := checkResponses_cons_ok h
      have hr := hpayload b rfl
      rw [hr] at hrest
      obtain ⟨ha, hall⟩ := ih hrest
      refine ⟨ha, fun r' hr' => ?_⟩
      rcases List.mem_cons.mp hr' with rfl | hr'
      · exact ⟨hok, hr⟩
      · exact hall r' hr'

theorem checkResponses_ok {a : Bytes} {resps : List Proto.ProposalResponse}
    (h : checkResponses none resps = .ok a) :
    ∀ r ∈ resps, Successful r ∧ r.payload = a := by
  cases resps with
  | nil => simp
  | cons r rest =>
      obtain ⟨hok, _, hrest⟩ := checkResponses_cons_ok h
      obtain ⟨rfl, hall⟩ := checkResponses_some_ok hrest
      intro r' hr'
      rcases List.mem_cons.mp hr' with rfl | hr'
      · exact ⟨hok, rfl⟩
      · exact hall r' hr'

theorem checkResponses_ne_panic {a1 : Option Bytes} {resps : List Proto.ProposalResponse}
    (h : ∀ r ∈ resps, r.response ≠ none) : checkResponses a1 resps ≠ .panic := by
  induction resps generalizing a1 with
  | nil => simp [checkResponses]
  | cons r rest ih =>
      rw [List.forall_mem_cons] at h
      obtain ⟨response, hresponse⟩ := Option.ne_none_iff_exists'.mp h.1
      simp only [checkResponses, hresponse, Outcome.deref, Outcome.ok_bind]
      split
      · simp
      · cases a1 with
        | none => exact ih h.2
        | some b =>
            simp only
            split
            · exact ih h.2
            · simp

/-- Responses with one payload are never reported as differing. -/
theorem checkResponses_ne_mismatch {p a b : Bytes} {a1 : Option Bytes}
    {resps : List Proto.ProposalResponse} (ha1 : ∀ x, a1 = some x → x = p)
    (h : ∀ r ∈ resps, r.payload = p) :
    ErrorsIn (fun err => err ≠ mismatchErr a b) (checkResponses a1 resps) := by
  induction resps generalizing a1 with
  | nil => exact errorsIn_ok _
  | cons r rest ih =>
      rw [List.forall_mem_cons] at h
      rw [checkResponses.eq_def]
      refine (errorsIn_deref r.response).bind fun response => ?_
      split
      · exact errorsIn_error (by simp [unsuccessfulErr, mismatchErr])
      · cases a1 with
        | none => exact ih (fun x hx => (Option.some.inj hx).symm.trans h.1) h.2
        | some x =>
            simp only [ha1 x rfl, h.1, if_true]
            exact ih (fun y hy => (Option.some.inj hy).symm) h.2

end Responses

section Endorsements

/-- The endorsements of a list of responses, in order. -/
def endorsementsOf (resps : List Proto.ProposalResponse) : List Proto.Endorsement :=
  resps.filterMap Proto.ProposalResponse.endorsement

/-- `unique` holds the first endorsement of every endorser, in order. -/
structure FirstOfEach (ends unique : List Proto.Endorsement) : Prop where
  sublist : unique.Sublist ends
  nodup : (unique.map Proto.Endorsement.endorser).Nodup
  first : ∀ e ∈ unique, ends.find? (fun x => x.endorser = e.endorser) = some e
  covers : ∀ e ∈ ends, e.endorser ∈ unique.map Proto.Endorsement.endorser

theorem uniqueEndorsements_eq (used : List Bytes) (resps : List Proto.ProposalResponse) :
    uniqueEndorsements used resps =
      keepFirst Proto.Endorsement.endorser used (endorsementsOf resps) := by
  induction resps generalizing used with
  | nil => rfl
  | cons r rest ih =>
      rw [uniqueEndorsements, endorsementsOf, List.filterMap_cons]
      cases r.endorsement with
      | none => exact ih used
      | some e =>
          by_cases hused : e.endorser ∈ used
          · simp only [keepFirst, hused, if_true]
            exact ih used
          · simp only [keepFirst, hused, if_false]
            rw [ih]
            rfl

theorem firstOfEach_uniqueEndorsements (resps : List Proto.ProposalResponse) :
    FirstOfEach (endorsementsOf resps) (uniqueEndorsements [] resps) := by
  rw [uniqueEndorsements_eq]
  exact
    { sublist := keepFirst_sublist [] _
      nodup := keepFirst_nodup [] _
      first := keepFirst_first
      covers := fun e he => (keepFirst_covers e he).resolve_left (by simp) }

end Endorsements

section CreateTx

variable {c : Proto.Codecs}

/-- Each endorsement comes with the identity its endorser decodes to. -/
def Identified (c : Proto.Codecs) (e : Proto.Endorsement) (x : Proto.EndorsementWithIdentity) :
    Prop :=
  x.endorsement = e.signature ∧
    ∃ identity, c.identity.unmarshal e.endorser = .ok identity ∧ x.identity = some identity

theorem withIdentities_ok {ends : List Proto.Endorsement}
    {entries : List Proto.EndorsementWithIdentity} (h : withIdentities c ends = .ok entries) :
    List.Forall₂ (Identified c) ends entries := by
  induction ends generalizing entries with
  | nil =>
      cases h
      exact List.Forall₂.nil
  | cons e rest ih =>
      simp only [withIdentities, Outcome.bind_eq_ok, Outcome.ofExcept_eq_ok] at h
      obtain ⟨identity, hidentity, tail, htail, h⟩ := h
      cases h
      exact List.Forall₂.cons ⟨rfl, identity, hidentity, rfl⟩ (ih htail)

theorem endorseTx_ok {a1 : Bytes} {ends : List Proto.Endorsement} {txBytes : Bytes}
    (h : endorseTx c a1 ends = .ok txBytes) :
    ∃ tx entries, c.tx.unmarshal a1 = .ok tx ∧ List.Forall₂ (Identified c) ends entries ∧
      c.tx.marshal { tx with endorsements := tx.namespaces.map fun _ => ⟨entries⟩ } =
        .ok txBytes := by
  simp only [endorseTx] at h
  split at h
  · cases h
  · rename_i tx htx
    rw [Outcome.bind_eq_ok] at h
    obtain ⟨entries, hentries, h⟩ := h
    split at h
    · cases h
    · rename_i hbytes
      cases h
      exact ⟨tx, entries, htx, withIdentities_ok hentries, hbytes⟩

/-- The channel header of the envelope: type `MESSAGE`, with the ids of the proposal. -/
theorem channelHeader_ok (hc : c.Lawful) {proposal : Proto.Proposal} {chdrBytes : Bytes}
    (h : channelHeader c proposal = .ok chdrBytes) :
    ∃ hdr chdr chdr', c.header.unmarshal proposal.header = .ok hdr ∧
      c.channelHeader.unmarshal hdr.channelHeader = .ok chdr ∧
      c.channelHeader.unmarshal chdrBytes = .ok chdr' ∧ chdr'.type = Proto.headerTypeMessage ∧
      chdr'.txId = chdr.txId ∧ chdr'.channelId = chdr.channelId := by
  simp only [channelHeader, Outcome.bind_eq_ok, Outcome.ofExcept_eq_ok] at h
  obtain ⟨hdr, hhdr, chdr, hchdr, h⟩ := h
  split at h
  · rw [Outcome.ofExcept_eq_ok] at h
    exact ⟨hdr, chdr, _, hhdr, hchdr, hc.channelHeader.unmarshal_marshal _ _ h, rfl, rfl, rfl⟩
  · rename_i htype
    cases h
    exact ⟨hdr, chdr, chdr, hhdr, hchdr, hchdr, not_not.mp htype, rfl, rfl⟩

/-- What `CreateTx` went through when it returns an envelope. -/
theorem createTx_ok {proposal : Option Proto.Proposal} {signer : Option Signer}
    {rand : Except Text Bytes} {resps : List Proto.ProposalResponse} {env : Proto.Envelope}
    (h : createTx c proposal signer rand resps = .ok env) :
    resps ≠ [] ∧ ∃ a1 txBytes shdrBytes prop chdrBytes, checkResponses none resps = .ok a1 ∧
      endorseTx c a1 (uniqueEndorsements [] resps) = .ok txBytes ∧ proposal = some prop ∧
      channelHeader c prop = .ok chdrBytes ∧
      c.payload.marshal ⟨some ⟨chdrBytes, shdrBytes⟩, txBytes⟩ = .ok env.payload := by
  simp only [createTx, Outcome.bind_eq_ok, Outcome.ofExcept_eq_ok, Outcome.deref_eq_ok] at h
  obtain ⟨_, hne, a1, ha1, _, _, txBytes, htx, shdrBytes, _, prop, hprop, chdrBytes, hchdr,
    paylBytes, hpayl, hsign⟩ := h
  have hresps : resps ≠ [] := by
    rintro rfl
    exact Outcome.failIf_eq_ok.mp hne rfl
  have hpayload : env.payload = paylBytes := by
    split at hsign
    · cases hsign
      rfl
    · rw [Outcome.bind_eq_ok] at hsign
      obtain ⟨sig, _, henv⟩ := hsign
      cases henv
      rfl
  rw [hpayload]
  exact ⟨hresps, a1, txBytes, shdrBytes, prop, chdrBytes, ha1, htx, hprop, hchdr, hpayl⟩

/-- The envelope of a successful call, opened: the ids are those of the proposal, and
the transaction is the endorsed one with the chosen endorsements. -/
theorem createTx_opens (hc : c.Lawful) {prop : Proto.Proposal} {signer : Option Signer}
    {rand : Except Text Bytes} {resps : List Proto.ProposalResponse} {env : Proto.Envelope}
    (h : createTx c (some prop) signer rand resps = .ok env) :
    ∃ a1 tx entries pl chdr hdr phdr,
      (∀ r ∈ resps, Successful r ∧ r.payload = a1) ∧ c.tx.unmarshal a1 = .ok tx ∧
      List.Forall₂ (Identified c) (uniqueEndorsements [] resps) entries ∧
      openEnvelope c env = .ok (pl, chdr) ∧
      c.tx.unmarshal pl.data =
        .ok { tx with endorsements := tx.namespaces.map fun _ => ⟨entries⟩ } ∧
      c.header.unmarshal prop.header = .ok hdr ∧
      c.channelHeader.unmarshal hdr.channelHeader = .ok phdr ∧
      chdr.type = Proto.headerTypeMessage ∧ chdr.txId = phdr.txId ∧
      chdr.channelId = phdr.channelId := by
  obtain ⟨_, a1, txBytes, shdrBytes, prop', chdrBytes, ha1, htxBytes, hprop, hchdrBytes, hpayl⟩ :=
    createTx_ok h
  obtain rfl := Option.some.inj hprop
  obtain ⟨tx, entries, htx, hentries, hmarshal⟩ := endorseTx_ok htxBytes
  obtain ⟨hdr, phdr, chdr, hhdr, hphdr, hchdr, htype, htxId, hchannelId⟩ :=
    channelHeader_ok hc hchdrBytes
  refine ⟨a1, tx, entries, ⟨some ⟨chdrBytes, shdrBytes⟩, txBytes⟩, chdr, hdr, phdr,
    checkResponses_ok ha1, htx, hentries, ?_, hc.tx.unmarshal_marshal _ _ hmarshal, hhdr, hphdr,
    htype, htxId, hchannelId⟩
  simp only [openEnvelope, hc.payload.unmarshal_marshal _ _ hpayl, hchdr]

/-- An error of the loop over the responses is the error of `CreateTx`. -/
theorem createTx_of_checkResponses {proposal : Option Proto.Proposal} {signer : Option Signer}
    {rand : Except Text Bytes} {resps : List Proto.ProposalResponse} {err : Text}
    (hne : resps ≠ []) (h : checkResponses none resps = .error err) :
    createTx c proposal signer rand resps = .error err := by
  have hlen : resps.length ≠ 0 := by simpa using hne
  simp [createTx, Outcome.failIf, hlen, h]

/-- The texts that errors of the steps after the loop over the responses begin with. -/
def laterErrs : List String :=
  ["at least one proposal response is required", "no endorsements",
    "expected applicationpb.Tx endorsement payload, ", "failed to unmarshal endorser identity",
    "can't marshal transaction payload", "serialize signer", "read nonce",
    "marshal signature header", "error unmarshaling Header", "error unmarshaling ChannelHeader",
    "marshal channel header", "error marshaling Payload", "sign envelope payload"]

/-- An error with one of these texts at its beginning. -/
def Later (err : Text) : Prop := ∃ what ∈ laterErrs, err.head? = some (.lit what)

theorem later_ofExcept {α : Type} {what : String} (x : Except Text α)
    (hwhat : what ∈ laterErrs) : ErrorsIn Later (Outcome.ofExcept what x) :=
  errorsIn_ofExcept fun _ => ⟨what, hwhat, rfl⟩

theorem later_withIdentities (c : Proto.Codecs) (ends : List Proto.Endorsement) :
    ErrorsIn Later (withIdentities c ends) := by
  induction ends with
  | nil => exact errorsIn_ok []
  | cons e rest ih =>
      refine (later_ofExcept _ (by decide)).bind fun identity => ?_
      refine ih.bind fun tail => ?_
      exact errorsIn_ok _

theorem later_endorseTx (c : Proto.Codecs) (a1 : Bytes) (ends : List Proto.Endorsement) :
    ErrorsIn Later (endorseTx c a1 ends) := by
  rw [endorseTx]
  split
  · exact errorsIn_error ⟨_, by decide, rfl⟩
  · refine (later_withIdentities c ends).bind fun entries => ?_
    dsimp only
    split
    · exact errorsIn_error ⟨_, by decide, rfl⟩
    · exact errorsIn_ok _

theorem later_signatureHeader (c : Proto.Codecs) (signer : Option Signer)
    (rand : Except Text Bytes) : ErrorsIn Later (signatureHeader c signer rand) := by
  have hcreator : ErrorsIn Later (creatorHeader signer rand) := by
    cases signer with
    | none => exact errorsIn_ok _
    | some signer =>
        refine (later_ofExcept _ (by decide)).bind fun creator => ?_
        refine (later_ofExcept _ (by decide)).bind fun nonce => ?_
        exact errorsIn_ok _
  refine hcreator.bind fun shdr => ?_
  exact later_ofExcept _ (by decide)

theorem later_channelHeader (c : Proto.Codecs) (proposal : Proto.Proposal) :
    ErrorsIn Later (channelHeader c proposal) := by
  refine (later_ofExcept _ (by decide)).bind fun hdr => ?_
  refine (later_ofExcept _ (by decide)).bind fun chdr => ?_
  split
  · exact later_ofExcept _ (by decide)
  · exact errorsIn_ok _

theorem not_later_mismatchErr (a b : Bytes) : ¬ Later (mismatchErr a b) := by
  rintro ⟨what, hwhat, hhead⟩
  have hlit : what = "ProposalResponsePayloads do not match (base64): '" := by
    simpa [mismatchErr] using hhead.symm
  rw [hlit] at hwhat
  exact absurd hwhat (by decide)

/-- An error of `CreateTx` is one of the loop over the responses, or a later one. -/
theorem createTx_errorsIn (c : Proto.Codecs) (proposal : Option Proto.Proposal)
    (signer : Option Signer) (rand : Except Text Bytes) (resps : List Proto.ProposalResponse) :
    ErrorsIn (fun err => checkResponses none resps = .error err ∨ Later err)
      (createTx c proposal signer rand resps) := by
  refine (errorsIn_failIf (Or.inr ⟨_, by decide, rfl⟩)).bind fun _ => ?_
  -- the steps are those of `CreateTx`, in its order
  refine ErrorsIn.bind (fun err h => Or.inl h) fun a1 => ?_
  refine ErrorsIn.mono ?_ fun err h => Or.inr h
  refine (errorsIn_failIf ⟨_, by decide, rfl⟩).bind fun _ => ?_
  refine (later_endorseTx c a1 _).bind fun txBytes => ?_
  refine (later_signatureHeader c signer rand).bind fun shdrBytes => ?_
  refine (errorsIn_deref proposal).bind fun prop => ?_
  refine (later_channelHeader c prop).bind fun chdrBytes => ?_
  refine (later_ofExcept _ (by decide)).bind fun paylBytes => ?_
  cases signer with
  | none => exact errorsIn_ok _
  | some signer =>
      refine (later_ofExcept _ (by decide)).bind fun sig => ?_
      exact errorsIn_ok _

end CreateTx

end FabricXSdk.Network.FabricX
