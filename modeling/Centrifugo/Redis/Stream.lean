import Centrifugo.Redis.Keys

/-!
# The stream of a channel

What the two history scripts do with the list and the hash of a channel, and how a frame is
taken apart. The rest of the development reads the scripts through these lemmas only.
-/

namespace Centrifugo

open Json Proto Redis

/-! ## Frames -/

/-- A name that holds no underscore ends at the marker after it. -/
theorem cutMarker_append {name : Bytes} (clean : 95 ∉ name) (body : Bytes) :
    cutMarker (name ++ marker ++ body) = some (name, body) := by
  induction name with
  | nil => rfl
  | cons a name ih =>
      obtain ⟨first, rest⟩ := not_or.mp (List.mem_cons.not.mp clean)
      have following := ih rest
      obtain ⟨b, others, shape⟩ := List.exists_cons_of_ne_nil
        (List.append_ne_nil_of_left_ne_nil
          (List.append_ne_nil_of_right_ne_nil name (by decide : marker ≠ [])) body)
      have apart : ¬ (a = 95 ∧ b = 95) := fun both => first both.1.symm
      rw [shape] at following
      rw [List.cons_append, List.cons_append, shape, cutMarker, if_neg apart, following]
      rfl

theorem isPrefixOf?_marker (body : Bytes) : marker.isPrefixOf? (marker ++ body) = some body := rfl

theorem extractPush_named {name : Bytes} (clean : 95 ∉ name) (body : Bytes) :
    extractPush (marker ++ name ++ marker ++ body) =
      ((readMarker name).1, (readMarker name).2, body) := by
  have cut : (marker.isPrefixOf? (marker ++ name ++ marker ++ body)).bind cutMarker =
      some (name, body) := by
    rw [List.append_assoc, List.append_assoc, isPrefixOf?_marker, Option.bind_some,
      ← List.append_assoc, cutMarker_append clean]
  rw [extractPush, cut]

/-- An encoded message never begins with a marker. -/
theorem extractPush_encode {μ : Type} [Message μ] (message : μ) :
    extractPush (encode message) = (.publication, 0, encode message) := by
  have unmarked : marker.isPrefixOf? (encode message) = none := by
    match shape : encode message with
    | [] => rfl
    | byte :: rest =>
        have bits := head_write shape
        have differs : byte ≠ 95 := by
          rintro rfl
          exact absurd bits (by decide)
        simp [marker, List.isPrefixOf?, differs.symm]
  rw [extractPush, unmarked]
  rfl

/-! ## Numbers in frames -/

theorem utf8EncodeChar_digit {c : Char} (digit : c.isDigit) :
    String.utf8EncodeChar c = [UInt8.ofNat c.toNat] := by
  have range : 48 ≤ c.toNat ∧ c.toNat ≤ 57 := by
    simpa [Char.isDigit, UInt32.le_iff_toNat_le] using digit
  have ascii : c.toNat ≤ 127 := by omega
  simp only [String.utf8EncodeChar, Char.toNat_val, ascii, if_true]

theorem digit_of_mem_decimal {n : Nat} {byte : UInt8} (mem : byte ∈ decimal n) :
    48 ≤ byte.toNat ∧ byte.toNat ≤ 57 := by
  obtain ⟨c, inside, encoded⟩ := List.mem_flatMap.mp mem
  have digit : c.isDigit := Nat.isDigit_of_mem_toDigits (by decide) (by decide) inside
  rw [utf8EncodeChar_digit digit, List.mem_singleton] at encoded
  have range : 48 ≤ c.toNat ∧ c.toNat ≤ 57 := by
    simpa [Char.isDigit, UInt32.le_iff_toNat_le] using digit
  subst encoded
  rw [UInt8.toNat_ofNat']
  omega

theorem decodeUtf8_decimal (n : Nat) : decodeUtf8 (decimal n) = some (Nat.toDigits 10 n) :=
  decodeUtf8_encodeUtf8 _

theorem parseU64_toDigits {n : Nat} (fits : n < 2 ^ 64) :
    parseU64 (Nat.toDigits 10 n) = some n := by
  have digits : ∀ c ∈ Nat.toDigits 10 n, c.isDigit :=
    fun c mem => Nat.isDigit_of_mem_toDigits (by decide) (by decide) mem
  have same : Nat.ofDigitChars 10 (Nat.toDigits 10 n) 0 = n := Nat.ofDigitChars_ten_toDigits
  obtain ⟨c, rest, shape⟩ := List.exists_cons_of_ne_nil (@Nat.toDigits_ne_nil n 10)
  rw [shape] at digits same ⊢
  have all : (c :: rest).all Char.isDigit := List.all_eq_true.mpr digits
  have unsigned : dropPlus (c :: rest) = c :: rest := by
    unfold dropPlus
    split
    next plus =>
      obtain ⟨rfl, -⟩ := List.cons.inj plus
      exact absurd (digits '+' List.mem_cons_self) (by decide)
    next => rfl
  simp only [parseU64, unsigned, ne_eq, reduceCtorEq, not_false_eq_true, all, and_self, if_true,
    same, if_pos fits]

/-- A frame of a history, with the offset as Lua writes it. -/
def historyFrame (offset : Nat) (body : Bytes) : Bytes :=
  marker ++ luaText (luaNumber offset) ++ marker ++ body

theorem readMarker_decimal {offset : Nat} (fits : offset < 2 ^ 64) :
    readMarker (decimal offset) = (.publication, offset) := by
  have range : ∀ byte ∈ decimal offset, byte.toNat ≤ 57 :=
    fun _ mem => (digit_of_mem_decimal mem).2
  unfold readMarker
  split
  next join =>
    rw [join] at range
    exact absurd (range 106 List.mem_cons_self) (by decide)
  next leave =>
    rw [leave] at range
    exact absurd (range 108 List.mem_cons_self) (by decide)
  next => rw [decodeUtf8_decimal, Option.bind_some, parseU64_toDigits fits, Option.getD_some]

theorem extractPush_historyFrame {offset : Nat} (fits : offset < 2 ^ 64)
    (printed : luaText (luaNumber offset) = decimal offset) (body : Bytes) :
    extractPush (historyFrame offset body) = (.publication, offset, body) := by
  have clean : 95 ∉ decimal offset := fun mem => absurd (digit_of_mem_decimal mem) (by decide)
  rw [historyFrame, printed, extractPush_named clean, readMarker_decimal fits]

/-- What is read from an item of a history list is what was framed. -/
theorem readItem_historyFrame {offset : Nat} (fits : offset < 2 ^ 64)
    (printed : luaText (luaNumber offset) = decimal offset) {publication : Pb.Publication}
    (short : (encode publication).length < 2 ^ 64) :
    RedisEngine.readItem (historyFrame offset (encode publication)) =
      some (Publication.received offset publication) := by
  simp only [RedisEngine.readItem, extractPush_historyFrame fits printed, decode_encode short,
    Option.map_some]

/-! ## The scripts -/

namespace Scripts

open Script

variable {store store' : Store} {listKey metaKey topic : String} {message epoch : Bytes}
variable {last listTtl metaTtl offset : Nat}

/-- The epoch in a hash, or the one that begins now. -/
def epochIn (fields : Map String Bytes) (now : Nat) : Bytes :=
  (fields.lookup "e").getD (decimal (now / 1000))

theorem epochOf_run (metaKey : String) (store : Store) :
    epochOf metaKey store = (hget metaKey "e" >>= epochFrom metaKey) store := by
  have there : present metaKey store = (.ok (store.keys metaKey).isSome, store) := rfl
  rw [epochOf, bind_ok there]
  cases found : store.keys metaKey with
  | some entry => rfl
  | none =>
      have empty : store.hashAt metaKey = some ∅ := by rw [Store.hashAt, found]
      have absent : hget metaKey "e" store = (.ok none, store) :=
        hget_eq_ok.mpr ⟨∅, empty, rfl, rfl⟩
      rw [bind_ok absent]
      rfl

theorem epochOf_eq_ok : epochOf metaKey store = (.ok epoch, store') ↔
    ∃ fields, store.hashAt metaKey = some fields ∧ epoch = epochIn fields store.now ∧
      store' = if (fields.lookup "e").isSome then store
        else store.put metaKey (.hash (fields.insert "e" epoch)) := by
  have now : time store = (.ok (store.now / 1000), store) := rfl
  rw [epochOf_run, bind_eq_ok]
  simp only [hget_eq_ok]
  constructor
  · rintro ⟨_, _, ⟨fields, found, rfl, rfl⟩, rest⟩
    refine ⟨fields, found, ?_⟩
    cases held : fields.lookup "e" with
    | some epoch' =>
        rw [held] at rest
        cases rest
        simp [epochIn, held]
    | none =>
        rw [held, epochFrom, bind_ok now, bind_eq_ok] at rest
        obtain ⟨_, _, set, done⟩ := rest
        obtain ⟨fields', found', rfl⟩ := hset_eq_ok.mp set
        rw [found] at found'
        cases found'
        cases done
        simp [epochIn, held]
  · rintro ⟨fields, found, rfl, rfl⟩
    refine ⟨_, _, ⟨fields, found, rfl, rfl⟩, ?_⟩
    cases held : fields.lookup "e" with
    | some epoch' => simp [epochIn, held, epochFrom]
    | none =>
        have set : hset metaKey "e" (decimal (store.now / 1000)) store =
            (.ok (), store.put metaKey (.hash (fields.insert "e" (decimal (store.now / 1000))))) :=
          hset_eq_ok.mpr ⟨fields, found, rfl⟩
        rw [epochFrom, bind_ok now, bind_ok set]
        simp [epochIn, held]

/-- After it was asked for, an epoch is in the hash. -/
theorem epochOf_after {fields : Map String Bytes} (found : store.hashAt metaKey = some fields)
    (h : epochOf metaKey store = (.ok epoch, store')) :
    epoch = epochIn fields store.now ∧
      (∃ fields', store'.keys metaKey =
          some ⟨.hash fields', (store.keys metaKey).bind Entry.deadline⟩ ∧
        fields'.lookup "e" = some epoch ∧ fields'.lookup "s" = fields.lookup "s") ∧
      (∀ key, key ≠ metaKey → store'.keys key = store.keys key) ∧ store'.now = store.now ∧
      store'.published = store.published := by
  obtain ⟨fields', found', named, rfl⟩ := epochOf_eq_ok.mp h
  rw [found] at found'
  cases found'
  refine ⟨named, ?_⟩
  cases held : fields.lookup "e" with
  | some epoch' =>
      have same : epoch = epoch' := by rw [named, epochIn, held, Option.getD_some]
      rw [if_pos (by rfl)]
      exact ⟨⟨fields, keys_of_lookup found held, by rw [held, same], rfl⟩, fun _ _ => rfl, rfl, rfl⟩
  | none =>
      rw [if_neg (by decide)]
      refine ⟨⟨_, put_hash store metaKey fields "e" epoch, AList.lookup_insert _, ?_⟩, ?_, rfl, rfl⟩
      · exact AList.lookup_insert_ne (by decide)
      · intro key other
        exact put_other store other _

/-- The deadline of a hash after a script has renewed it. -/
def renewed (store : Store) (metaKey : String) (metaTtl : Nat) : Option Nat :=
  if metaTtl = 0 then (store.keys metaKey).bind Entry.deadline
  else some (store.now + 1000 * metaTtl)

theorem renew_run {value : Redis.Value} {deadline : Option Nat} (metaTtl : Nat)
    (found : store.keys metaKey = some ⟨value, deadline⟩) :
    onlyIf (metaTtl ≠ 0) (expire metaKey metaTtl) store =
      (.ok (), store.set metaKey (some ⟨value,
        if metaTtl = 0 then deadline else some (store.now + 1000 * metaTtl)⟩)) := by
  by_cases zero : metaTtl = 0
  · have same : store.set metaKey (some ⟨value, deadline⟩) = store := by
      rw [← found, Store.set, Function.update_eq_self]
    simp [onlyIf, zero, same]
  · simp only [onlyIf, zero, ne_eq, not_false_eq_true, if_true, if_false]
    exact expire_run (Nat.pos_of_ne_zero zero) found

/-- The offset of a stream goes up by one, under the epoch that it has or begins. -/
theorem nextOffset_run {fields : Map String Bytes} {n : Nat}
    (found : store.hashAt metaKey = some fields) (counted : count (fields.lookup "s") = some n)
    (room : n + 1 < 2 ^ 63) (metaTtl : Nat) :
    ∃ store', nextOffset metaKey metaTtl store =
        (.ok (n + 1, epochIn fields store.now), store') ∧
      (∃ fields', store'.keys metaKey = some ⟨.hash fields', renewed store metaKey metaTtl⟩ ∧
        fields'.lookup "e" = some (epochIn fields store.now) ∧
        fields'.lookup "s" = some (decimal (n + 1))) ∧
      (∀ key, key ≠ metaKey → store'.keys key = store.keys key) ∧ store'.now = store.now ∧
      store'.published = store.published := by
  have asked := epochOf_eq_ok.mpr ⟨fields, found, rfl, rfl⟩
  obtain ⟨-, ⟨fields₁, stored₁, epoch₁, count₁⟩, others₁, now₁, published₁⟩ :=
    epochOf_after found asked
  generalize (if (fields.lookup "e").isSome then store
    else store.put metaKey (.hash (fields.insert "e" (epochIn fields store.now)))) = s₁ at *
  have incremented : hincrby metaKey "s" 1 s₁ = (.ok (n + 1), s₁.put metaKey
      (.hash (fields₁.insert "s" (decimal (n + 1))))) :=
    hincrby_eq_ok.mpr ⟨fields₁, n, hashAt_eq stored₁, by rw [count₁, counted], rfl, room, rfl⟩
  have stored₂ := put_hash s₁ metaKey fields₁ "s" (decimal (n + 1))
  have renewing := renew_run metaTtl stored₂
  rw [stored₁, Option.bind_some, put_now, now₁] at renewing
  refine ⟨(s₁.put metaKey (.hash (fields₁.insert "s" (decimal (n + 1))))).set metaKey
      (some ⟨.hash (fields₁.insert "s" (decimal (n + 1))), renewed store metaKey metaTtl⟩),
    ?_, ⟨_, Store.set_self _ _ _, ?_, AList.lookup_insert _⟩, ?_, now₁, published₁⟩
  · rw [nextOffset, bind_ok asked, bind_ok incremented, bind_ok renewing]
    rfl
  · rw [AList.lookup_insert_ne (by decide), epoch₁]
  · intro key other
    rw [Store.set_other _ other, put_other _ other, others₁ key other]

/-- An item is kept in front of the items that were there. -/
theorem keepItem_run {items : List Bytes} (listed : store.listAt listKey = some items)
    (ahead : 0 < listTtl) (item : Bytes) (last : Nat) :
    ∃ store', keepItem listKey item last listTtl store = (.ok (), store') ∧
      store'.keys listKey = some ⟨.list ((item :: items).take (last + 1)),
        some (store.now + 1000 * listTtl)⟩ ∧
      (∀ key, key ≠ listKey → store'.keys key = store.keys key) ∧ store'.now = store.now ∧
      store'.published = store.published := by
  have pushed : lpush listKey item store =
      (.ok (), store.put listKey (.list (item :: items))) :=
    lpush_eq_ok.mpr ⟨items, listed, rfl⟩
  have stored := put_list (List.cons_ne_nil item items) store listKey
  have others : ∀ key, key ≠ listKey →
      (store.put listKey (.list (item :: items))).keys key = store.keys key :=
    fun key other => put_other store other _
  have now : (store.put listKey (.list (item :: items))).now = store.now := rfl
  have published : (store.put listKey (.list (item :: items))).published = store.published := rfl
  generalize store.put listKey (.list (item :: items)) = s₁ at *
  have front : span 0 (last : Int) (item :: items) = (item :: items).take (last + 1) :=
    span_front _ _
  have trimmed : ltrim listKey 0 last s₁ =
      (.ok (), s₁.put listKey (.list ((item :: items).take (last + 1)))) :=
    ltrim_eq_ok.mpr ⟨item :: items, listAt_eq stored, by rw [front]⟩
  have stored' := put_list (by simp : (item :: items).take (last + 1) ≠ []) s₁ listKey
  have expiring := expire_run ahead stored'
  rw [put_now, now] at expiring
  refine ⟨(s₁.put listKey (.list ((item :: items).take (last + 1)))).set listKey
      (some ⟨.list ((item :: items).take (last + 1)), some (store.now + 1000 * listTtl)⟩),
    ?_, Store.set_self _ _ _, ?_, now, published⟩
  · rw [keepItem, bind_ok pushed, bind_ok trimmed, expiring]
  · intro key other
    rw [Store.set_other _ other, put_other _ other, others key other]

/-- A store after an append to a stream. -/
structure Appended (store : Store) (listKey metaKey : String) (message : Bytes)
    (last listTtl : Nat) (topic : String) (metaTtl offset : Nat) (epoch : Bytes)
    (store' : Store) : Prop where
  list : ∃ items, store.listAt listKey = some items ∧ store'.keys listKey =
    some ⟨.list ((historyFrame offset message :: items).take (last + 1)),
      some (store.now + 1000 * listTtl)⟩
  hash : ∃ fields, store'.keys metaKey =
      some ⟨.hash fields, renewed store metaKey metaTtl⟩ ∧
    fields.lookup "e" = some epoch ∧ fields.lookup "s" = some (decimal offset)
  others : ∀ key, key ≠ listKey → key ≠ metaKey → store'.keys key = store.keys key
  now : store'.now = store.now
  published : store'.published = store.published ++
    if topic = "" then [] else [(topic, historyFrame offset message)]

/-- An append goes well when both keys hold what they should, and the offset has room. -/
theorem addHistory_run (apart : listKey ≠ metaKey) (ahead : 0 < listTtl)
    {fields : Map String Bytes} {n : Nat} {items : List Bytes}
    (found : store.hashAt metaKey = some fields) (counted : count (fields.lookup "s") = some n)
    (room : n + 1 < 2 ^ 63) (listed : store.listAt listKey = some items) :
    ∃ store', addHistory listKey metaKey message last listTtl topic metaTtl store =
        (.ok (luaNumber (n + 1), epochIn fields store.now), store') ∧
      Appended store listKey metaKey message last listTtl topic metaTtl (n + 1)
        (epochIn fields store.now) store' := by
  obtain ⟨s₁, numbered, hash, others₁, now₁, published₁⟩ :=
    nextOffset_run found counted room metaTtl
  have listed₁ : s₁.listAt listKey = some items := by
    rw [listAt_congr (others₁ listKey apart), listed]
  obtain ⟨s₂, kept, list, others₂, now₂, published₂⟩ :=
    keepItem_run listed₁ ahead (historyFrame (n + 1) message) last
  rw [now₁] at list
  have hash₂ : s₂.keys metaKey = s₁.keys metaKey := others₂ metaKey apart.symm
  have others : ∀ key, key ≠ listKey → key ≠ metaKey → s₂.keys key = store.keys key :=
    fun key other other' => (others₂ key other).trans (others₁ key other')
  have published := published₂.trans published₁
  have ran : addHistory listKey metaKey message last listTtl topic metaTtl store =
      (onlyIf (topic ≠ "") (publish topic (historyFrame (n + 1) message)) >>= fun _ =>
        pure (luaNumber (n + 1), epochIn fields store.now)) s₂ := by
    rw [addHistory, bind_ok numbered]
    exact bind_ok kept
  rw [ran]
  by_cases silent : topic = ""
  · refine ⟨s₂, by simp [onlyIf, silent, bind_run], ⟨items, listed, list⟩, ?_, others,
      now₂.trans now₁, by simp [published, silent]⟩
    rw [hash₂]
    exact hash
  · refine ⟨{ s₂ with published := s₂.published ++ [(topic, historyFrame (n + 1) message)] },
      by simp [onlyIf, silent, bind_run, publish], ⟨items, listed, list⟩, ?_, others,
      now₂.trans now₁, by simp [published, silent]⟩
    rw [hash₂]
    exact hash

/-- An append that went well found what it needs. -/
theorem addHistory_found (apart : listKey ≠ metaKey)
    (h : addHistory listKey metaKey message last listTtl topic metaTtl store =
      (.ok (offset, epoch), store')) :
    ∃ fields n items, store.hashAt metaKey = some fields ∧ count (fields.lookup "s") = some n ∧
      n + 1 < 2 ^ 63 ∧ store.listAt listKey = some items := by
  obtain ⟨⟨offset', epoch'⟩, s₁, numbered, rest⟩ := bind_eq_ok.mp h
  obtain ⟨_, s₂, asked, counting⟩ := bind_eq_ok.mp numbered
  obtain ⟨_, _, incremented, _⟩ := bind_eq_ok.mp counting
  obtain ⟨fields, found, -⟩ := epochOf_eq_ok.mp asked
  obtain ⟨-, ⟨fields₁, stored₁, -, same⟩, -⟩ := epochOf_after found asked
  obtain ⟨fields₂, n, found₂, counted, rfl, room, -⟩ := hincrby_eq_ok.mp incremented
  rw [hashAt_eq stored₁] at found₂
  cases found₂
  rw [same] at counted
  obtain ⟨s₁', numbered', -, others₁, -⟩ := nextOffset_run found counted room metaTtl
  rw [numbered] at numbered'
  cases numbered'
  obtain ⟨_, _, kept, -⟩ := bind_eq_ok.mp rest
  obtain ⟨_, _, pushed, -⟩ := bind_eq_ok.mp kept
  obtain ⟨items, listed, -⟩ := lpush_eq_ok.mp pushed
  rw [listAt_congr (others₁ listKey apart)] at listed
  exact ⟨fields, n, items, found, counted, room, listed⟩

/-- An append that went well is the next one of its stream. -/
theorem addHistory_ok (apart : listKey ≠ metaKey) (ahead : 0 < listTtl)
    (h : addHistory listKey metaKey message last listTtl topic metaTtl store =
      (.ok (offset, epoch), store')) :
    ∃ fields n, store.hashAt metaKey = some fields ∧ count (fields.lookup "s") = some n ∧
      n + 1 < 2 ^ 63 ∧ epoch = epochIn fields store.now ∧
      Appended store listKey metaKey message last listTtl topic metaTtl (n + 1) epoch store' := by
  obtain ⟨fields, n, items, found, counted, room, listed⟩ := addHistory_found apart h
  obtain ⟨s, ran, appended⟩ := @addHistory_run store listKey metaKey topic message last listTtl
    metaTtl apart ahead fields n items found counted room listed
  rw [h] at ran
  cases ran
  exact ⟨fields, n, found, counted, room, rfl, appended⟩

/-- A reading finds the stream, and begins an epoch when there is none. -/
theorem history_run {fields : Map String Bytes} {items : List Bytes} (apart : listKey ≠ metaKey)
    (found : store.hashAt metaKey = some fields) (listed : store.listAt listKey = some items)
    (metaTtl : Nat) :
    ∃ store', history listKey metaKey metaTtl store =
        (.ok (fields.lookup "s", epochIn fields store.now, items), store') ∧
      (∃ fields', store'.keys metaKey = some ⟨.hash fields', renewed store metaKey metaTtl⟩ ∧
        fields'.lookup "e" = some (epochIn fields store.now) ∧
        fields'.lookup "s" = fields.lookup "s") ∧
      (∀ key, key ≠ metaKey → store'.keys key = store.keys key) ∧ store'.now = store.now ∧
      store'.published = store.published := by
  have got : hget metaKey "s" store = (.ok (fields.lookup "s"), store) :=
    hget_eq_ok.mpr ⟨fields, found, rfl, rfl⟩
  have asked := epochOf_eq_ok.mpr ⟨fields, found, rfl, rfl⟩
  obtain ⟨-, ⟨fields₁, stored₁, epoch₁, count₁⟩, others₁, now₁, published₁⟩ :=
    epochOf_after found asked
  generalize (if (fields.lookup "e").isSome then store
    else store.put metaKey (.hash (fields.insert "e" (epochIn fields store.now)))) = s₁ at *
  have renewing := renew_run metaTtl stored₁
  rw [now₁] at renewing
  have others₂ : ∀ key, key ≠ metaKey →
      (s₁.set metaKey (some ⟨.hash fields₁, renewed store metaKey metaTtl⟩)).keys key =
        store.keys key := by
    intro key other
    rw [Store.set_other _ other, others₁ key other]
  have listed₂ := (listAt_congr (others₂ listKey apart)).trans listed
  have ranged := lrange_eq_ok.mpr ⟨items, listed₂, (span_all items).symm, rfl⟩
  refine ⟨_, ?_, ⟨fields₁, Store.set_self _ _ _, epoch₁, count₁⟩, others₂, now₁, published₁⟩
  rw [history, bind_ok got, bind_ok asked, bind_ok renewing]
  exact bind_ok ranged

end Scripts

/-! ## Reading a history -/

namespace RedisEngine

variable {engine : RedisEngine} {store : Store} {channel : String}

theorem listKey_ne_metaKey : engine.listKey channel ≠ engine.metaKey channel := by
  intro same
  obtain ⟨kinds, -⟩ | ⟨-, -, same⟩ | ⟨kinds, -⟩ := (@key_eq_iff engine .historyList .historyMeta
    channel channel).mp same
  · cases kinds
  · have lengths := congrArg String.length same
    simp [String.length_append] at lengths
  · cases kinds

/-- The text of an epoch that began in some second. -/
def second (t : Nat) : String := String.ofList (Nat.toDigits 10 t)

theorem second_injective : Function.Injective second := by
  intro t t' same
  apply decimal_injective
  rw [decimal, decimal, String.ofList_injective same]

theorem orderedInsert_last {others : List Publication} {last : Publication}
    (below : ∀ b ∈ others, b.offset < last.offset) :
    others.orderedInsert (fun a b => a.offset ≤ b.offset) last = others ++ [last] := by
  induction others with
  | nil => rfl
  | cons b others ih =>
      have first : ¬ last.offset ≤ b.offset := Nat.not_le.mpr (below b List.mem_cons_self)
      rw [List.orderedInsert_cons, if_neg first,
        ih fun c mem => below c (List.mem_cons_of_mem b mem)]
      rfl

/-- Items that descend by offset are put the other way round. -/
theorem byOffset_eq_reverse {kept : List Publication}
    (descending : kept.Pairwise fun a b => b.offset < a.offset) :
    byOffset kept = kept.reverse := by
  induction kept with
  | nil => rfl
  | cons first kept ih =>
      obtain ⟨above, rest⟩ := List.pairwise_cons.mp descending
      have sorted : byOffset (first :: kept) =
          (byOffset kept).orderedInsert (fun a b => a.offset ≤ b.offset) first := rfl
      rw [sorted, ih rest, List.reverse_cons]
      refine orderedInsert_last ?_
      intro b mem
      exact above b (List.mem_reverse.mp mem)

theorem filterMap_of_map {α β : Type} {f : α → Option β} {items : List α} {kept : List β}
    (h : items.map f = kept.map some) : items.filterMap f = kept := by
  have whole := congrArg (List.filterMap fun b => b) h
  simpa [List.filterMap_map] using whole

theorem offsetOf_of_count {value : Option Bytes} {n : Nat} (counted : Script.count value = some n)
    (fits : n < 2 ^ 64) (store : Store) : offsetOf value store = (.ok n, store) := by
  cases value with
  | none =>
      cases counted
      rfl
  | some bytes =>
      have parsed : (decodeUtf8 bytes).bind parseU64 = some n := by
        rw [eq_decimal_of_counter? counted, decodeUtf8_decimal, Option.bind_some,
          parseU64_toDigits fits]
      simp only [offsetOf, parsed]
      rfl

theorem readHistory_run {fields : Map String Bytes} {items : List Bytes} {n : Nat} {text : Text}
    (found : store.hashAt (engine.metaKey channel) = some fields)
    (listed : store.listAt (engine.listKey channel) = some items)
    (counted : Script.count (fields.lookup "s") = some n) (fits : n < 2 ^ 64)
    (epoch : decodeUtf8 (Scripts.epochIn fields store.now) = some text) :
    ∃ store', engine.readHistory channel store =
        (.ok (byOffset (items.filterMap readItem), ⟨n, String.ofList text⟩), store') ∧
      (∃ fields', store'.keys (engine.metaKey channel) = some ⟨.hash fields',
          Scripts.renewed store (engine.metaKey channel) engine.historyMetaTtl⟩ ∧
        fields'.lookup "e" = some (Scripts.epochIn fields store.now) ∧
        fields'.lookup "s" = fields.lookup "s") ∧
      (∀ key, key ≠ engine.metaKey channel → store'.keys key = store.keys key) ∧
      store'.now = store.now ∧ store'.published = store.published := by
  obtain ⟨store', ran, rest⟩ :=
    Scripts.history_run listKey_ne_metaKey found listed engine.historyMetaTtl
  refine ⟨store', ?_, rest⟩
  have offset := offsetOf_of_count counted fits store'
  have named : textOf (Scripts.epochIn fields store.now) store' =
      (.ok (String.ofList text), store') := by
    simp only [textOf, epoch]
    rfl
  rw [readHistory, Script.bind_ok ran]
  refine (Script.bind_ok offset).trans ?_
  exact Script.bind_ok named

end RedisEngine

end Centrifugo
