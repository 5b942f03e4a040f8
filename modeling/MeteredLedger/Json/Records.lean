import MeteredLedger.Account
import MeteredLedger.Block
import MeteredLedger.Json.Form

/-!
# JSON forms of the ledger's records

Identifiers are arrays of their bytes, as numbers; quantities are numbers in
full; records have their fields in the order of their declaration, under the
keys listed here.
-/

namespace MeteredLedger

instance : JsonForm Hash where
  toJson h := toJson h.toBytes
  ofJson? j := ofJson? j >>= Hash.ofBytes?

instance : JsonForm Address where
  toJson a := toJson a.toBytes
  ofJson? j := ofJson? j >>= Address.ofBytes?

open Json (fields? required? optional? ofFields)

instance : JsonForm Signature where
  toJson σ := ofFields [("r", toJson σ.r), ("s", toJson σ.s), ("v", toJson σ.v)]
  ofJson? j := do
    match ← fields? ["r", "s", "v"] j with
    | [r, s, v] => some ⟨← required? r, ← required? s, ← required? v⟩
    | _ => none

instance : JsonForm Transaction where
  toJson t := ofFields [
    ("nonce", toJson t.nonce), ("gas_limit", toJson t.gasLimit), ("to", toJson t.recipient),
    ("value", toJson t.value), ("data", toJson t.data), ("signature", toJson t.signature)]
  ofJson? j := do
    match ← fields? ["nonce", "gas_limit", "to", "value", "data", "signature"] j with
    | [nonce, gasLimit, recipient, value, data, signature] =>
      some ⟨← required? nonce, ← required? gasLimit, ← optional? recipient, ← required? value,
        ← required? data, ← optional? signature⟩
    | _ => none

instance : JsonForm Header where
  toJson h := ofFields [
    ("parent_hash", toJson h.parentHash), ("number", toJson h.number),
    ("state_root", toJson h.stateRoot), ("transactions_root", toJson h.transactionsRoot),
    ("timestamp", toJson h.timestamp), ("proposer", toJson h.proposer),
    ("extra_data", toJson h.extraData), ("gas_limit", toJson h.gasLimit)]
  ofJson? j := do
    match ← fields? ["parent_hash", "number", "state_root", "transactions_root", "timestamp",
      "proposer", "extra_data", "gas_limit"] j with
    | [parentHash, number, stateRoot, transactionsRoot, timestamp, proposer, extraData, gasLimit] =>
      some ⟨← required? parentHash, ← required? number, ← required? stateRoot,
        ← required? transactionsRoot, ← required? timestamp, ← required? proposer,
        ← required? extraData, ← required? gasLimit⟩
    | _ => none

instance : JsonForm Block where
  toJson b := ofFields [("header", toJson b.header), ("transactions", toJson b.transactions)]
  ofJson? j := do
    match ← fields? ["header", "transactions"] j with
    | [header, transactions] => some ⟨← required? header, ← required? transactions⟩
    | _ => none

instance : JsonForm Log where
  toJson l := ofFields [
    ("address", toJson l.address), ("topics", toJson l.topics), ("data", toJson l.data)]
  ofJson? j := do
    match ← fields? ["address", "topics", "data"] j with
    | [address, topics, data] => some ⟨← required? address, ← required? topics, ← required? data⟩
    | _ => none

instance : JsonForm Receipt where
  toJson r := ofFields [
    ("transaction_hash", toJson r.transactionHash),
    ("transaction_index", toJson r.transactionIndex), ("block_number", toJson r.blockNumber),
    ("from", toJson r.sender), ("to", toJson r.recipient), ("gas_used", toJson r.gasUsed),
    ("status", toJson r.status), ("contract_address", toJson r.contractAddress),
    ("logs", toJson r.logs)]
  ofJson? j := do
    match ← fields? ["transaction_hash", "transaction_index", "block_number", "from", "to",
      "gas_used", "status", "contract_address", "logs"] j with
    | [hash, index, number, sender, recipient, gasUsed, status, contractAddress, logs] =>
      some ⟨← required? hash, ← required? index, ← required? number, ← required? sender,
        ← optional? recipient, ← required? gasUsed, ← required? status, ← optional? contractAddress,
        ← required? logs⟩
    | _ => none

instance : JsonForm Account where
  toJson a := ofFields [
    ("nonce", toJson a.nonce), ("balance", toJson a.balance), ("code_hash", toJson a.codeHash)]
  ofJson? j := do
    match ← fields? ["nonce", "balance", "code_hash"] j with
    | [nonce, balance, codeHash] =>
      some ⟨← required? nonce, ← required? balance, ← required? codeHash⟩
    | _ => none

end MeteredLedger
