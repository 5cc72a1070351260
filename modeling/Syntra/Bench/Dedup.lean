import Mathlib.Data.Finset.Basic
import Syntra.Bench.Cdc
import Syntra.Lib.Interned

/-!
# The deduplication bench

Two versions of a data set are cut into chunks; each chunk is compressed and counted where its
hash is first seen, and the second version is put together again from the chunks kept.
-/

set_option autoImplicit false

namespace Syntra

namespace Bench

open Machine Tiling

/-! ## Chunks -/

inductive Chunker where
  | fixo (alvo : Nat)
  | cdc (alvo : Nat)
  deriving DecidableEq

structure Sorteio where
  gear : UInt8 → UInt64
  mascaras : Nat → UInt64 × UInt64

def Sorteio.cdc (sorteio : Sorteio) (alvo : Nat) : Cdc :=
  { minimo := alvo / 4
    normal := alvo
    maximo := alvo * 8
    mascaraS := (sorteio.mascaras alvo).1
    mascaraL := (sorteio.mascaras alvo).2
    gear := sorteio.gear }

/-- Offsets and lengths; `none` where it raises. -/
def chunkear (sorteio : Sorteio) (cfg : Chunker) (buf : Bytes) : Option (List (Nat × Nat)) :=
  let n := buf.length
  if n = 0 then some []
  else match cfg with
    | .fixo alvo =>
      some ((List.range ((n + (alvo - 1)) / alvo)).map fun k =>
        (k * alvo, min alvo (n - k * alvo)))
    | .cdc alvo =>
      let minimo := alvo / 4
      if n ≤ minimo then some [(0, n)]
      else match fastcdcCortar (sorteio.cdc alvo) buf (n / minimo + 2) with
        | .ok chunks => chunks
        | .error _ => none

/-! ## Sources -/

inductive Versao where
  | v1
  | v2
  deriving DecidableEq

/-- An entry of the manifest with the bytes that `ler` returns for it. -/
structure Arquivo where
  c : String
  s : Bytes
  dados : Bytes
  deriving DecidableEq

abbrev Fontes := Versao → List Arquivo

def logico (fonte : List Arquivo) : Nat := (fonte.map fun f => f.dados.length).sum

inductive Categoria where
  | igual
  | alterado
  | novo
  deriving DecidableEq

/-- `mapa.get`: of entries with one name the last counts. -/
def categoria (fontes : Fontes) (x : Arquivo) : Categoria :=
  match (fontes .v1).reverse.find? fun y => y.c = x.c with
  | none => .novo
  | some y => if y.s = x.s then .igual else .alterado

/-- The hashes, the compressor and the chunker. -/
structure Ferramentas where
  blake2b : Bytes → Bytes
  sha256 : Bytes → Bytes
  comprimir : Nat → Bytes → Bytes
  descomprimir : Bytes → Bytes
  cortar : Bytes → Option (List (Nat × Nat))
  /-- One in so many chunks is also compressed at level 19; zero for none. -/
  amostra : Nat

/-! ## The scan -/

structure Unico where
  ver : Versao
  obj : Nat
  off : Nat
  tam : Nat
  c3 : Nat
  c19 : Option Nat
  deriving DecidableEq

structure Varredura where
  dic : Bytes → Option Nat
  unicos : List Unico
  recs : Versao → List Nat
  ini : Versao → List Nat
  nChunks : Versao → Nat
  vsV1 : Nat
  dupTotal : Nat
  codecOk : Bool

def Varredura.inicial : Varredura :=
  { dic := fun _ => none
    unicos := []
    recs := fun _ => []
    ini := fun _ => []
    nChunks := fun _ => 0
    vsV1 := 0
    dupTotal := 0
    codecOk := true }

variable (F : Ferramentas)

def amostrado (h : Bytes) : Bool := F.amostra ≠ 0 ∧ (h.headD 0).toNat % F.amostra = 0

def Varredura.novo (estado : Varredura) (ver : Versao) (i o s : Nat) (v h : Bytes) : Varredura :=
  let c := F.comprimir 3 v
  let c19 := F.comprimir 19 v
  let unico : Unico :=
    { ver
      obj := i
      off := o
      tam := s
      c3 := c.length
      c19 := if amostrado F h then some c19.length else none }
  { estado with
    dic := Function.update estado.dic h (some estado.unicos.length)
    unicos := estado.unicos ++ [unico]
    codecOk := estado.codecOk && F.descomprimir c == v &&
      (!amostrado F h || F.descomprimir c19 == v) }

def Varredura.repetido (estado : Varredura) (ver : Versao) (s u : Nat) : Varredura :=
  match ver with
  | .v1 => estado
  | .v2 =>
    { estado with
      dupTotal := estado.dupTotal + s
      vsV1 := if (estado.unicos[u]?).any fun x => x.ver = .v1 then estado.vsV1 + s
        else estado.vsV1 }

def Varredura.chunk (ver : Versao) (i : Nat) (dados : Bytes) (estado : Varredura)
    (corte : Nat × Nat) : Varredura :=
  let v := (dados.drop corte.1).take corte.2
  let h := F.blake2b v
  let (u, depois) := match estado.dic h with
    | none => (estado.unicos.length, estado.novo F ver i corte.1 corte.2 v h)
    | some u => (u, estado.repetido ver corte.2 u)
  { depois with recs := Function.update depois.recs ver (depois.recs ver ++ [u]) }

def Varredura.arquivo (ver : Versao) (estado : Varredura) (i : Nat) (dados : Bytes) :
    Option Varredura :=
  (F.cortar dados).map fun cortes =>
    cortes.foldl (Varredura.chunk F ver i dados)
      { estado with
        ini := Function.update estado.ini ver (estado.ini ver ++ [(estado.recs ver).length])
        nChunks := Function.update estado.nChunks ver (estado.nChunks ver + cortes.length) }

def Varredura.versao (ver : Versao) : Nat → List Arquivo → Varredura → Option Varredura
  | _, [], estado => some estado
  | i, f :: fs, estado => (estado.arquivo F ver i f.dados).bind (Varredura.versao ver (i + 1) fs)

def varrerChunks (fontes : Fontes) : Option Varredura :=
  (Varredura.inicial.versao F .v1 0 (fontes .v1)).bind (Varredura.versao F .v2 0 (fontes .v2))

/-! ## The second version put together -/

def conteudo (fontes : Fontes) (u : Unico) : Option Bytes :=
  ((fontes u.ver)[u.obj]?).map fun f => (f.dados.drop u.off).take u.tam

/-- The bytes that go into the hash of the `j`-th file; `none` where an index is out of range. -/
def Varredura.remontar (fontes : Fontes) (estado : Varredura) (j : Nat) : Option Bytes :=
  (estado.ini .v2)[j]?.bind fun a =>
    let b := ((estado.ini .v2)[j + 1]?).getD (estado.recs .v2).length
    ((((estado.recs .v2).drop a).take (b - a)).mapM fun u =>
      estado.unicos[u]?.bind (conteudo fontes)).map List.flatten

/-- The names of the files that differ, from the `j`-th on; it stops after the sixth. -/
def Varredura.falhas (fontes : Fontes) (estado : Varredura) :
    Nat → List Arquivo → List String → Option (List String)
  | _, [], achadas => some achadas
  | j, f :: fs, achadas =>
    (estado.remontar fontes j).bind fun bytes =>
      if F.sha256 bytes = f.s then Varredura.falhas fontes estado (j + 1) fs achadas
      else if 5 < (achadas ++ [f.c]).length then some (achadas ++ [f.c])
      else Varredura.falhas fontes estado (j + 1) fs (achadas ++ [f.c])

/-! ## The report -/

/-- The counts of the report; the ratios are computed of these. -/
structure Relatorio where
  logicoV1 : Nat
  logicoV2 : Nat
  nChunksV1 : Nat
  nChunksV2 : Nat
  nUnicos : Nat
  nUnicosV1 : Nat
  bytesUnicos : Nat
  bytesV2JaEmV1 : Nat
  bytesV2Duplicados : Nat
  armazenadoZ3 : Nat
  bitExato : Bool
  falhas : List String
  bytesAmostraZ3 : Nat
  bytesAmostraZ19 : Nat
  custoMarginal : Categoria → Nat

def somaUnicos (unicos : List Unico) (f : Unico → Nat) : Nat := (unicos.map f).sum

def Varredura.relatorio (fontes : Fontes) (estado : Varredura) : Option Relatorio :=
  (estado.falhas F fontes 0 (fontes .v2) []).map fun falhas =>
    { logicoV1 := logico (fontes .v1)
      logicoV2 := logico (fontes .v2)
      nChunksV1 := estado.nChunks .v1
      nChunksV2 := estado.nChunks .v2
      nUnicos := estado.unicos.length
      nUnicosV1 := (estado.unicos.filter fun u => u.ver = .v1).length
      bytesUnicos := somaUnicos estado.unicos Unico.tam
      bytesV2JaEmV1 := estado.vsV1
      bytesV2Duplicados := estado.dupTotal
      armazenadoZ3 := somaUnicos estado.unicos Unico.c3
      bitExato := falhas.isEmpty && estado.codecOk
      falhas
      bytesAmostraZ3 := somaUnicos (estado.unicos.filter fun u => u.c19.isSome) Unico.c3
      bytesAmostraZ19 := somaUnicos estado.unicos fun u => u.c19.getD 0
      custoMarginal := fun cat => somaUnicos (estado.unicos.filter fun u =>
        u.ver = .v2 ∧ ((fontes .v2)[u.obj]?).map (categoria fontes) = some cat) Unico.c3 }

end Bench

end Syntra
