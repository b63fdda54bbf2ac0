import Ftm50s.Firewall.Converter

set_option autoImplicit false

namespace Ftm50s.Firewall

open Lib.Text Lib.Decimal Lib.Filter

def isReadable (rule : FtmRule) : Bool := isKnown (some rule.ifname) && isKnown (some rule.policy)

def rulePrinted (rule : FtmRule) : Bytes := filterText (convertedScan rule) (some rule.protocol)

theorem direction_known (rule : FtmRule) (valid : InFormat rule) : isKnown (some rule.direction) = true := by
  cases valid.direction with
  | inl inward => rw [inward]; decide
  | inr outward => rw [outward]; decide

theorem protocol_kept (rule : FtmRule) (valid : InFormat rule) (other : rule.chain ≠ ascii "FORWARD") :
    keptProtocol rule.protocol = some rule.protocol ∧ isKnown (some rule.protocol) = true := by
  have known := valid.protocol
  rw [if_neg other] at known
  obtain same | same | same := known
  · rw [same]; decide
  · rw [same]; decide
  · rw [same]; decide

theorem converted_filter (rule : FtmRule) (valid : InFormat rule) :
    filterOf (convertedScan rule) = if isReadable rule then some (rulePrinted rule) else none := by
  have direction := direction_known rule valid
  have chainRead : (convertedScan rule).chain = some rule.chain := rfl
  by_cases forward : rule.chain = ascii "FORWARD"
  · have notOther : ¬((convertedScan rule).chain.any fun chain => startsWith "INPUT" chain ||
      startsWith "OUTPUT" chain) = true := by
      rw [chainRead, forward]; decide
    have isForward : ((convertedScan rule).chain.any (startsWith "FORWARD")) = true := by
      rw [chainRead, forward]; decide
    have chain : isKnown (some rule.chain) = true := by rw [forward]; decide
    have protocol : rule.protocol = ascii "all" := by
      have known := valid.protocol
      rwa [if_pos forward] at known
    rw [filterOf, if_neg notOther, if_pos isForward, rulePrinted, protocol]
    simp only [convertedScan, chain, direction, Bool.true_and]
    rfl
  · have isOther : ((convertedScan rule).chain.any fun chain => startsWith "INPUT" chain || startsWith "OUTPUT" chain) =
      true := by
      obtain same | same | same := valid.chain
      · rw [chainRead, same]; decide
      · rw [chainRead, same]; decide
      · exact absurd same forward
    obtain ⟨kept, protocol⟩ := protocol_kept rule valid forward
    rw [filterOf, if_pos isOther, rulePrinted]
    simp only [convertedScan, kept, direction, protocol, Bool.true_and, Bool.and_true]
    rfl

def printedFields (rule : FtmRule) : List Bytes :=
  [rule.chain, rule.direction, rule.ifname, (keptAddress rule.sip).getD [], (keptAddress rule.dip).getD [],
    rule.protocol, ascii "0",
    dportRead rule.direction rule.sport rule.dport, rule.policy]

theorem printed_fields (rule : FtmRule) : (filterFields (convertedScan rule) (some rule.protocol)).map Prod.snd =
    printedFields rule := rfl

theorem kept_address_word (address : Bytes) :
    (keptAddress address).getD [] = [] ∨ isWord ((keptAddress address).getD []) = true := by
  by_cases any : isAnyAddress address = true
  · rw [keptAddress, if_pos any]
    exact Or.inr (by decide)
  · rw [keptAddress, if_neg any]
    exact Or.inl rfl

theorem dport_read_word (direction sport dport : Bytes) (word : isWord dport = true) :
    isWord (dportRead direction sport dport) = true := by
  have kinds : ∀ kind port, isWord kind = true → isWord port = true → isWord (typeRead direction kind port) = true := by
    intro kind port kindWord portWord
    rw [typeRead]
    split
    · exact kindWord
    · exact portWord
  have first : isWord (sportRead direction sport) = true := by
    rw [sportRead]
    split
    · rename_i reply
      rw [reply]
      exact kinds _ _ (by decide) (by decide)
    · decide
  rw [dportRead]
  split
  · exact first
  · split
    · exact kinds _ _ word first
    · exact word

theorem printed_words (rule : FtmRule) (hasWords : HasWords rule) (field : Bytes)
    (member : field ∈ printedFields rule) :
    field = [] ∨ isWord field = true := by
  simp only [HasWords, FtmRule.record, List.forall_mem_cons] at hasWords
  obtain ⟨_, chain, direction, ifname, _, _, protocol, _, dport, policy, _⟩ := hasWords
  simp only [printedFields, List.mem_cons, List.not_mem_nil, or_false] at member
  obtain rfl | rfl | rfl | rfl | rfl | rfl | rfl | rfl | rfl := member
  · exact Or.inr chain
  · exact Or.inr direction
  · exact Or.inr ifname
  · exact kept_address_word rule.sip
  · exact kept_address_word rule.dip
  · exact Or.inr protocol
  · exact Or.inr (by decide)
  · exact Or.inr (dport_read_word _ _ _ dport)
  · exact Or.inr policy

theorem rule_printed_words (rule : FtmRule) (hasWords : HasWords rule) :
    words (ascii "RULE  " ++ rulePrinted rule) = ascii "RULE" :: (printedFields rule).filter (!·.isEmpty) := by
  have tag := words_word_space (ascii "RULE") (32 :: rulePrinted rule) 32 (by decide) (by decide)
  have valid : ∀ field ∈ filterFields (convertedScan rule) (some rule.protocol), field.2 = [] ∨ isWord field.2 =
    true := by
    intro field member
    exact printed_words rule hasWords field.2 (printed_fields rule ▸ List.mem_map_of_mem member)
  have fields : words (rulePrinted rule) = (printedFields rule).filter (!·.isEmpty) := words_gaps _ valid
  rw [words_space_cons 32 _ (by decide), fields] at tag
  exact tag

def ruleRead (rule : FtmRule) : Option (List Bytes) :=
  if isReadable rule then some (ascii "RULE" :: (printedFields rule).filter (!·.isEmpty)) else none

-- No address, no source port, no ICMP type on an outgoing rule, and no name that
-- awk takes for the number zero
structure Convertible (rule : FtmRule) : Prop where
  sip : rule.sip = ascii "0.0.0.0"
  dip : rule.dip = ascii "0.0.0.0"
  sport : rule.sport = ascii "0"
  dport : rule.dport = ascii "echo-request" → rule.direction = ascii "IN"
  ifname : isZeroNumber rule.ifname = false
  policy : isZeroNumber rule.policy = false

theorem known_iff (text : Bytes) (word : isWord text = true) :
    isKnown (some text) = true ↔ isZeroNumber text = false := by
  have filled := word_nonempty text word
  rw [isKnown]
  by_cases zero : isZeroNumber text = true
  · simp [zero]
  · simp [zero, filled]

theorem kept_address_iff (address : Bytes) (word : isWord address = true) :
    (keptAddress address).getD [] = address ↔ address = ascii "0.0.0.0" := by
  by_cases any : isAnyAddress address = true
  · rw [keptAddress, if_pos any]
    exact eq_comm
  · rw [keptAddress, if_neg any]
    refine ⟨fun lost => absurd lost.symm (word_nonempty address word), fun same => ?_⟩
    rw [same] at any
    exact absurd rfl any

theorem dport_read_iff (rule : FtmRule) (valid : InFormat rule) (none : rule.sport = ascii "0") :
    dportRead rule.direction rule.sport rule.dport = rule.dport ↔ (rule.dport = ascii "echo-request" → rule.direction =
    ascii "IN") := by
  have unread : sportRead rule.direction rule.sport = ascii "0" := by rw [none]; rfl
  rw [dportRead, unread]
  by_cases request : rule.dport = ascii "echo-request"
  · rw [if_neg (by rw [request]; decide), if_pos request, typeRead]
    cases valid.direction with
    | inl inward => simp [inward]
    | inr outward =>
        rw [if_neg (by rw [outward]; decide), request, outward]
        decide
  · by_cases zero : rule.dport = ascii "0"
    · rw [if_pos zero]
      exact ⟨fun _ asked => absurd asked request, fun _ => zero.symm⟩
    · simp [zero, request]

theorem filter_whole (fields others : List Bytes) (length : others.length = fields.length)
    (same : fields.filter (!·.isEmpty) = others) :
    fields = others := by
  have all : (fields.filter (!·.isEmpty)).length = fields.length := by rw [same, length]
  rw [← same]
  exact (List.filter_eq_self.mpr (List.length_filter_eq_length_iff.mp all)).symm

theorem rule_read_iff (rule : FtmRule) (valid : InFormat rule) (hasWords : HasWords rule) :
    ruleRead rule = some rule.record ↔ Convertible rule := by
  have each := hasWords
  simp only [HasWords, FtmRule.record, List.forall_mem_cons] at each
  obtain ⟨_, _, _, ifname, sip, dip, _, _, _, policy, _⟩ := each
  rw [ruleRead, isReadable]
  refine ⟨fun same => ?_, fun fine => ?_⟩
  · split at same
    · rename_i readable
      rw [Bool.and_eq_true, known_iff _ ifname, known_iff _ policy] at readable
      have fields : printedFields rule = rule.record.tail :=
        filter_whole _ _ rfl (List.cons.inj (Option.some.inj same)).2
      simp only [printedFields, FtmRule.record, List.tail_cons, List.cons.injEq, true_and, and_true] at fields
      obtain ⟨sameSip, sameDip, sameSport, sameDport⟩ := fields
      have none : rule.sport = ascii "0" := sameSport.symm
      exact ⟨(kept_address_iff _ sip).mp sameSip, (kept_address_iff _ dip).mp sameDip, none,
        (dport_read_iff rule valid none).mp sameDport, readable.1, readable.2⟩
    · cases same
  · have readable : (isKnown (some rule.ifname) && isKnown (some rule.policy)) = true := by
      rw [Bool.and_eq_true, known_iff _ ifname, known_iff _ policy]
      exact ⟨fine.ifname, fine.policy⟩
    have fields : printedFields rule = rule.record.tail := by
      rw [printedFields, (kept_address_iff _ sip).mpr fine.sip, (kept_address_iff _ dip).mpr fine.dip,
        (dport_read_iff rule valid fine.sport).mpr fine.dport, ← fine.sport]
      rfl
    have filled : ∀ field ∈ rule.record.tail, (!field.isEmpty) = true := by
      intro field member
      simpa using word_nonempty field (hasWords field (List.mem_of_mem_tail member))
    rw [if_pos readable, fields, List.filter_eq_self.mpr filled]
    rfl

end Ftm50s.Firewall
