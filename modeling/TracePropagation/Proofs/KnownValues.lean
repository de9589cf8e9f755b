import TracePropagation.Invocation.Trigger
import Mathlib.Tactic.SplitIfs

/-!
# Only known values are recorded

The span of an invocation is described by the function it runs and by the batch of messages
it was given, and the library writes an attribute only for what it knows: the region only when
the environment names one, the function's name, version and resource name only when they are
not empty, the memory only when it is positive, the account id and the destination only when
their field of the resource name is there and not empty. A topic gives the message id of a
batch of one only when it is not empty; a queue gives it whenever the message has one, even an
empty one, which is the one way an empty text reaches these attributes.

* `Attribute.NoEmptyText`, `Attribute.FitsInt64` — no empty text; every integer in the signed
  64-bit range;
* `Invocation.mem_attributes`, `Source.mem_queueAttributes`, `Source.mem_topicAttributes` —
  everything each description can hold, and under which condition;
* `Invocation.filter_maxMemory`, `Invocation.filter_accountId` — the memory in bytes and the
  fifth field of the resource name, each recorded once when known;
* `Source.queueAttributes_noEmptyText_iff` — a queue batch carries an empty text exactly when it
  is one message with an empty id (`Source.queueAttributes_empty_message_id`);
* `described_attributes_known` — all of it together.
-/

namespace TracePropagation

namespace Attribute

/-- No attribute of the list has the empty text as its value. -/
def NoEmptyText (as : List Attribute) : Prop :=
  ∀ a ∈ as, a.value ≠ .str ""

instance (as : List Attribute) : Decidable (NoEmptyText as) :=
  inferInstanceAs (Decidable (∀ a ∈ as, a.value ≠ .str ""))

/-- Every integer value of the list lies in the signed 64-bit range. -/
def FitsInt64 (as : List Attribute) : Prop :=
  ∀ a ∈ as, ∀ v, a.value = .int v → -9223372036854775808 ≤ v ∧ v ≤ 9223372036854775807

@[simp] theorem text_key (k v : String) : (text k v).key = k := rfl
@[simp] theorem text_value (k v : String) : (text k v).value = .str v := rfl
@[simp] theorem int_key (k : String) (v : Int) : (int k v).key = k := rfl
@[simp] theorem int_value (k : String) (v : Int) : (int k v).value = .int v := rfl

end Attribute

/-- A field kept only when it is not empty is not empty. -/
theorem Text.ne_empty_of_kept {cs : List Char} {a : String}
    (h : (if cs.isEmpty then none else some (String.ofList cs)) = some a) : a ≠ "" := by
  split_ifs at h with hcs
  cases h
  simpa [String.ofList_eq_empty_iff] using hcs

open Attribute

namespace Invocation

/-- The account id is the fifth `:`-separated field of the resource name, if it has one that is
not empty. -/
theorem accountId_eq (arn : String) :
    accountId arn = ((arn.toList.splitOn ':')[4]?.filter (!·.isEmpty)).map String.ofList := by
  unfold accountId Text.pieces
  cases (arn.toList.splitOn ':')[4]? with
  | none => rfl
  | some cs => cases h : cs.isEmpty <;> simp [Option.filter, h]

theorem accountId_ne_empty {arn a : String} (h : accountId arn = some a) : a ≠ "" := by
  unfold accountId at h
  split at h
  · exact Text.ne_empty_of_kept h
  · cases h

/-- What the attributes of an invocation can be: the provider, and each of the region, name,
version, memory, resource name and account id when it is known. -/
theorem mem_attributes {i : Invocation} {region : Option String} {a : Attribute} :
    a ∈ i.attributes region ↔
      a = text "cloud.provider" "aws" ∨
      (∃ r, region = some r ∧ r ≠ "" ∧ a = text "cloud.region" r) ∨
      (i.functionName ≠ "" ∧ a = text "faas.name" i.functionName) ∨
      (i.version ≠ "" ∧ a = text "faas.version" i.version) ∨
      (0 < i.memory ∧ a = int "faas.max_memory" (i.memory * 1048576)) ∨
      (i.invokedArn ≠ "" ∧ a = text "aws.lambda.invoked_arn" i.invokedArn) ∨
      (i.invokedArn ≠ "" ∧ ∃ acct, accountId i.invokedArn = some acct ∧
        a = text "cloud.account.id" acct) := by
  unfold attributes
  cases hr : region.filter (!·.isEmpty) <;> cases ha : accountId i.invokedArn <;>
    simp_all [Int.mul_assoc] <;> grind

theorem attributes_noEmptyText (i : Invocation) (region : Option String) :
    NoEmptyText (i.attributes region) := by
  intro a ha
  rcases mem_attributes.mp ha with rfl | ⟨r, -, hr, rfl⟩ | ⟨h, rfl⟩ | ⟨h, rfl⟩ | ⟨-, rfl⟩ |
    ⟨h, rfl⟩ | ⟨-, acct, hacct, rfl⟩
  · simp
  · simpa using hr
  · simpa using h
  · simpa using h
  · simp
  · simpa using h
  · simpa using accountId_ne_empty hacct

/-- For a memory a 32-bit number can hold, every integer value fits in 64 bits: the memory in
bytes is at most `(2 ^ 31 - 1) * 2 ^ 20`. -/
theorem attributes_fitsInt64 {i : Invocation} (hmem : i.memory ≤ 2147483647)
    (region : Option String) : FitsInt64 (i.attributes region) := by
  intro a ha v hv
  rcases mem_attributes.mp ha with rfl | ⟨r, -, -, rfl⟩ | ⟨-, rfl⟩ | ⟨-, rfl⟩ | ⟨hpos, rfl⟩ |
    ⟨-, rfl⟩ | ⟨-, acct, -, rfl⟩
  all_goals simp only [text_value, int_value, reduceCtorEq, AttrValue.int.injEq] at hv
  subst hv
  omega

/-- The memory is recorded, in bytes, exactly when it is positive. -/
theorem filter_maxMemory (i : Invocation) (region : Option String) :
    (i.attributes region).filter (·.key == "faas.max_memory") =
      if 0 < i.memory then [int "faas.max_memory" (i.memory * 1048576)] else [] := by
  unfold attributes
  cases region.filter (!·.isEmpty) <;> cases accountId i.invokedArn <;>
    simp [List.filter_append, apply_ite (List.filter _), text, int, Int.mul_assoc]

/-- The account id is recorded exactly when the resource name has a fifth `:`-separated field
that is not empty, and it is that field. -/
theorem filter_accountId (i : Invocation) (region : Option String) :
    (i.attributes region).filter (·.key == "cloud.account.id") =
      ((i.invokedArn.toList.splitOn ':')[4]?.filter (!·.isEmpty)).toList.map
        fun f => text "cloud.account.id" (String.ofList f) := by
  have hfield : ((i.invokedArn.toList.splitOn ':')[4]?.filter (!·.isEmpty)).toList.map
      (fun f => text "cloud.account.id" (String.ofList f)) =
      (accountId i.invokedArn).toList.map (text "cloud.account.id") := by
    rw [accountId_eq]
    cases (i.invokedArn.toList.splitOn ':')[4]?.filter (!·.isEmpty) <;> rfl
  rw [hfield]
  unfold attributes
  -- an empty resource name has one field only, so the guard on it loses no account id
  by_cases harn : i.invokedArn = ""
  · have hnone : accountId "" = none := rfl
    cases region.filter (!·.isEmpty) <;>
      simp [List.filter_append, apply_ite (List.filter _), text, int, harn, hnone]
  · cases region.filter (!·.isEmpty) <;> cases accountId i.invokedArn <;>
      simp [List.filter_append, apply_ite (List.filter _), text, int, harn]

end Invocation

namespace Source

theorem resourceName_ne_empty {arn q : String} (h : resourceName arn = some q) : q ≠ "" := by
  unfold resourceName at h
  split at h
  · exact Text.ne_empty_of_kept h
  · cases h

/-- What the attributes of a queue batch can be: the system, the operation and the count, the
destination when the first message names one, and the id of a batch's only message when it has
one, whatever its text. -/
theorem mem_queueAttributes {e : QueueEvent} {a : Attribute} :
    a ∈ queueAttributes e ↔
      a = text "messaging.system" "aws_sqs" ∨ a = text "messaging.operation.type" "process" ∨
      a = int "messaging.batch.message_count" e.records.length ∨
      (∃ arn q, e.records.head?.bind (·.eventSourceArn) = some arn ∧ resourceName arn = some q ∧
        a = text "messaging.destination.name" q) ∨
      (∃ m id, e.records = [m] ∧ m.messageId = some id ∧ a = text "messaging.message.id" id) := by
  unfold queueAttributes
  -- the batch is empty, one message, or more
  rcases e with ⟨_ | ⟨m, _ | ⟨m', rest⟩⟩⟩ <;>
    simp only [List.head?_nil, List.head?_cons, Option.bind_none, Option.bind_some]
  · simp
  · cases m.eventSourceArn with
    | none => cases hm : m.messageId <;> simp [hm]
    | some arn => cases hq : resourceName arn <;> cases hm : m.messageId <;> simp [hq, hm]
  · cases m.eventSourceArn with
    | none => simp
    | some arn => cases hq : resourceName arn <;> simp [hq]

/-- What the attributes of a topic batch can be: the system, the operation and the count, the
destination when the first notification names one, and the id of a batch's only notification
when its text is not empty. -/
theorem mem_topicAttributes {e : TopicEvent} {a : Attribute} :
    a ∈ topicAttributes e ↔
      a = text "messaging.system" "aws_sns" ∨ a = text "messaging.operation.type" "process" ∨
      a = int "messaging.batch.message_count" e.records.length ∨
      (∃ r t, e.records.head? = some r ∧ resourceName r.topicArn = some t ∧
        a = text "messaging.destination.name" t) ∨
      (∃ r, e.records = [r] ∧ r.messageId ≠ "" ∧ a = text "messaging.message.id" r.messageId) := by
  unfold topicAttributes
  rcases e with ⟨_ | ⟨r, _ | ⟨r', rest⟩⟩⟩ <;> simp only [List.head?_nil, List.head?_cons]
  · simp
  · cases ht : resourceName r.topicArn <;> simp [ht]
  · cases ht : resourceName r.topicArn <;> simp [ht]

/-- A queue batch carries no empty text exactly when it is not a single message whose id is
present and empty: the id of a batch's only message is written whatever its text. -/
theorem queueAttributes_noEmptyText_iff (e : QueueEvent) :
    NoEmptyText (queueAttributes e) ↔ ∀ m, e.records = [m] → m.messageId ≠ some "" := by
  constructor
  · intro h m hm hid
    exact h _ (mem_queueAttributes.mpr (.inr (.inr (.inr (.inr ⟨m, "", hm, hid, rfl⟩))))) rfl
  · intro h a ha
    rcases mem_queueAttributes.mp ha with rfl | rfl | rfl | ⟨arn, q, -, hq, rfl⟩ |
      ⟨m, id, hm, hid, rfl⟩
    · simp
    · simp
    · simp
    · simpa using resourceName_ne_empty hq
    · simp only [text_value, ne_eq, AttrValue.str.injEq]
      rintro rfl
      exact h m hm hid

theorem topicAttributes_noEmptyText (e : TopicEvent) : NoEmptyText (topicAttributes e) := by
  intro a ha
  rcases mem_topicAttributes.mp ha with rfl | rfl | rfl | ⟨r, t, -, ht, rfl⟩ | ⟨r, -, hid, rfl⟩
  · simp
  · simp
  · simp
  · simpa using resourceName_ne_empty ht
  · simpa using hid

/-- Only the batch of one queue message is given a message id. -/
theorem queueAttributes_messageId_single {e : QueueEvent} {a : Attribute}
    (ha : a ∈ queueAttributes e) (hkey : a.key = "messaging.message.id") :
    e.records.length = 1 := by
  -- the other attributes have keys of their own
  rcases mem_queueAttributes.mp ha with rfl | rfl | rfl | ⟨arn, q, -, -, rfl⟩ | ⟨m, -, hm, -, -⟩
  · simp at hkey
  · simp at hkey
  · simp at hkey
  · simp at hkey
  · simp [hm]

/-- Only the batch of one topic notification is given a message id. -/
theorem topicAttributes_messageId_single {e : TopicEvent} {a : Attribute}
    (ha : a ∈ topicAttributes e) (hkey : a.key = "messaging.message.id") :
    e.records.length = 1 := by
  rcases mem_topicAttributes.mp ha with rfl | rfl | rfl | ⟨r, t, -, -, rfl⟩ | ⟨r, hr, -, -⟩
  · simp at hkey
  · simp at hkey
  · simp at hkey
  · simp at hkey
  · simp [hr]

end Source

/-- **Only known values are recorded.** The attributes of an invocation and of a topic batch
carry no empty text, and those of a queue batch none unless the batch is a single message with
an empty id. The memory is recorded in bytes when it is positive, and for every memory a 32-bit
number holds it fits in 64 bits; the account id is the fifth `:`-separated field of the resource
name, when it is not empty; and only a batch of one record is given a message id. -/
theorem described_attributes_known (i : Invocation) (region : Option String) (qe : QueueEvent)
    (te : TopicEvent) :
    NoEmptyText (i.attributes region) ∧ NoEmptyText (Source.topicAttributes te) ∧
    (NoEmptyText (Source.queueAttributes qe) ↔ ∀ m, qe.records = [m] → m.messageId ≠ some "") ∧
    (i.attributes region).filter (·.key == "faas.max_memory") =
      (if 0 < i.memory then [int "faas.max_memory" (i.memory * 1048576)] else []) ∧
    (i.memory ≤ 2147483647 → FitsInt64 (i.attributes region)) ∧
    (i.attributes region).filter (·.key == "cloud.account.id") =
      ((i.invokedArn.toList.splitOn ':')[4]?.filter (!·.isEmpty)).toList.map
        (fun f => text "cloud.account.id" (String.ofList f)) ∧
    (∀ a ∈ Source.queueAttributes qe, a.key = "messaging.message.id" → qe.records.length = 1) ∧
    (∀ a ∈ Source.topicAttributes te, a.key = "messaging.message.id" → te.records.length = 1) :=
  ⟨Invocation.attributes_noEmptyText i region, Source.topicAttributes_noEmptyText te,
    Source.queueAttributes_noEmptyText_iff qe, Invocation.filter_maxMemory i region,
    fun hmem => Invocation.attributes_fitsInt64 hmem region, Invocation.filter_accountId i region,
    fun _ ha hkey => Source.queueAttributes_messageId_single ha hkey,
    fun _ ha hkey => Source.topicAttributes_messageId_single ha hkey⟩

/-- The largest memory a 32-bit number holds still gives an integer that fits in 64 bits. -/
theorem described_attributes_at_largest_memory :
    ({ functionName := "my-function", memory := 2147483647 } : Invocation).memory ≤ 2147483647 ∧
      FitsInt64 (({ functionName := "my-function", memory := 2147483647 } : Invocation).attributes
        (some "us-east-1")) :=
  ⟨Int.le_refl _, (described_attributes_known { functionName := "my-function", memory := 2147483647 }
    (some "us-east-1") ⟨[]⟩ ⟨[]⟩).2.2.2.2.1 (Int.le_refl _)⟩

/-- A batch of one queue message whose id is empty is described with an empty message id. -/
theorem Source.queueAttributes_empty_message_id :
    text "messaging.message.id" "" ∈ Source.queueAttributes
      ⟨[⟨some "", none, some "arn:aws:sqs:us-east-1:123456789:my-queue", []⟩]⟩ :=
  Source.mem_queueAttributes.mpr (.inr (.inr (.inr (.inr ⟨_, "", rfl, rfl, rfl⟩))))

end TracePropagation
