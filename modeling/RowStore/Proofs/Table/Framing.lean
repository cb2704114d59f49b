import RowStore.Proofs.Table.Paging

/-! # What an insertion changes

All that an insertion changes lies in the place of the next row. This holds of
any table, whatever was done to it before: a call that broke a rule may have
allocated the page of that row already and left bytes in its place. They are
overwritten when a row is appended there, and nothing else is touched then. A
row that breaks a rule itself does not get beyond that place either.
-/

namespace RowStore

open Layout

namespace Table

/-- Another table has the same bytes but for those in the place of the row with this index. It may
have one page more, which is blank outside of that place. -/
structure AgreesBut (table : Table) (row : Nat) (other : Table) : Prop where
  kept : ∀ index page, table.page? index = some page → ∃ after, other.page? index = some after ∧
    ∀ place, ¬ Occupies row index place → after.bytes[place]? = page.bytes[place]?
  fresh : ∀ index after, table.page? index = none → other.page? index = some after →
    index = row / 14 ∧
      ∀ place < 4096, ¬ Occupies row index place → after.bytes[place]? = some 0

/-- Whatever is put in the next place, no byte outside of it changes. -/
theorem agreesBut_pagesWith {table : Table} (hlen : table.len < maxRows) (slot : Slot) (len : Nat) :
    table.AgreesBut table.len { len, pages := table.pagesWith hlen slot } where
  kept := by
    intro index page hpage
    rw [page?_pagesWith]
    split
    next hindex =>
      subst hindex
      have hnext : table.nextPage = some page := hpage
      refine ⟨_, rfl, ?_⟩
      intro place hplace
      rw [getElem?_put_of_not_occupies _ rfl hplace, hnext, Option.getD_some]
    next => exact ⟨page, hpage, fun _ _ => rfl⟩
  fresh := by
    intro index after hnone hafter
    rw [page?_pagesWith] at hafter
    split at hafter
    next hindex =>
      subst hindex
      have hnext : table.nextPage = none := hnone
      obtain rfl := Option.some.inj hafter
      refine ⟨rfl, ?_⟩
      intro place hlt hplace
      rw [getElem?_put_of_not_occupies _ rfl hplace, hnext, Option.getD_none, getElem?_blank hlt]
    next =>
      rw [hnone] at hafter
      cases hafter

/-- Whether the row fits or not, no byte outside of its place changes. -/
theorem agreesBut_insert {table : Table} (hlen : table.len < maxRows) (row : Row) :
    table.AgreesBut table.len (table.insert row).table := by
  by_cases hfits : row.Fits
  · rw [insert_of_fits hlen hfits]
    exact agreesBut_pagesWith hlen _ _
  · obtain ⟨slot, breach, hinsert, -⟩ := insert_of_not_fits hlen hfits
    rw [hinsert]
    exact agreesBut_pagesWith hlen _ _

/-- While there is room, an insertion changes no byte outside of the place of the next row. If the
row fits, it is appended, and its place holds what writing it gives over any old bytes. A table that
is full turns every row down and stays as it is. -/
theorem insert_changes_one_slot (table : Table) (row : Row) :
    let insertion := table.insert row
    (table.len < 1400 → table.AgreesBut table.len insertion.table ∧
      (row.username.utf8ByteSize ≤ 32 → row.email.utf8ByteSize ≤ 255 →
        insertion.outcome = .ok () ∧ insertion.table.len = table.len + 1 ∧
        ∃ page slot, insertion.table.page? (table.len / 14) = some page ∧
          (page.bytes.toList.drop (table.len % 14 * 291)).take 291 = slot.bytes.toList ∧
          ∀ old : Slot, old.store row = (slot, .ok ()))) ∧
    (1400 ≤ table.len → insertion.outcome = .error (.rejected .tableFull) ∧
      insertion.table = table) := by
  intro insertion
  refine ⟨?_, ?_⟩
  · intro hlen
    refine ⟨agreesBut_insert hlen row, ?_⟩
    intro husername hemail
    have hfits : row.Fits := ⟨husername, hemail⟩
    have hinsert : insertion = _ := insert_of_fits hlen hfits
    rw [hinsert]
    obtain ⟨page, hpage, hbytes⟩ :=
      exists_page_of_slot? (slot?_pagesWith_self hlen (.ofRow row) (table.len + 1))
    exact ⟨rfl, rfl, page, .ofRow row, hpage, hbytes, fun old => old.store_of_fits hfits⟩
  · intro hfull
    have hinsert : insertion = _ := insert_of_isFull hfull row
    rw [hinsert]
    exact ⟨rfl, rfl⟩

/-- A row overwrites what is left of one whose email was too long by a byte. -/
theorem insert_changes_one_slot_over_remains :
    let broken := (empty.insert ⟨7, "annabel", String.ofList (.replicate 256 'e')⟩).table
    broken.len = 0 ∧ (broken.page? 0).isSome = true ∧
      ∃ page, (broken.insert ⟨1, "bob", "b@c"⟩).table.page? 0 = some page ∧
        page.bytes.toList.take 291 = (Slot.ofRow ⟨1, "bob", "b@c"⟩).bytes.toList := by
  intro broken
  have hfits : ¬ Row.Fits ⟨7, "annabel", String.ofList (.replicate 256 'e')⟩ := by decide +kernel
  have hlen : broken.len = 0 := by
    have hroom : empty.len < maxRows := by decide
    obtain ⟨slot, breach, hbroken, -⟩ := insert_of_not_fits hroom hfits
    exact congrArg len hbroken
  have hpage : broken.Allocates 1 :=
    allocates_empty.insert (by decide) (Nat.le_refl 0) (Nat.zero_le _) _
  obtain ⟨-, happend⟩ :=
    (broken.insert_changes_one_slot ⟨1, "bob", "b@c"⟩).1 (by rw [hlen]; decide)
  obtain ⟨-, -, page, slot, hafter, hbytes, hstore⟩ := happend (by decide) (by decide)
  obtain rfl : slot = Slot.ofRow ⟨1, "bob", "b@c"⟩ :=
    congrArg Prod.fst ((hstore slot).symm.trans (slot.store_of_fits ⟨by decide, by decide⟩))
  rw [hlen] at hafter hbytes
  exact ⟨hlen, (hpage 0).mpr Nat.zero_lt_one, page, hafter, hbytes⟩

end Table

end RowStore
