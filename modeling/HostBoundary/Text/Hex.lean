namespace HostBoundary.Hex

def digit? (c : Char) : Option Nat :=
  if '0' ≤ c ∧ c ≤ '9' then some (c.toNat - 48)
  else if 'A' ≤ c ∧ c ≤ 'F' then some (c.toNat - 55)
  else if 'a' ≤ c ∧ c ≤ 'f' then some (c.toNat - 87)
  else none

def natural? (digits : List Char) : Option Nat :=
  digits.foldlM (fun n c => (digit? c).map (16 * n + ·)) 0

def padded (width n : Nat) : String := String.ofList (List.leftpad width '0' (Nat.toDigits 16 n))

def ofBytes (bytes : List UInt8) : String :=
  String.join (bytes.map fun byte => padded 2 byte.toNat)

def bytes? : List Char → Option (List UInt8)
  | [] => some []
  | [_] => none
  | high :: low :: rest => do
    let byte ← natural? [high, low]
    return UInt8.ofNat byte :: (← bytes? rest)

end HostBoundary.Hex
