import Nfs3.ClientError
import Nfs3.Exchange.WireType
import Nfs3.Procedures

/-! Procedures together with the exchange forms of what they take and give. -/
namespace Nfs3.Exchange

open Rpc

structure Operation where
  {Args : Type}
  {Reply : Type}
  procedure : Procedure Args Reply
  args : Form Args
  reply : Form Reply

structure FileOperation where
  {Args : Type}
  {Ok : Type}
  {Fail : Type}
  procedure : FileProcedure Args Ok Fail
  args : Form Args
  ok : Form Ok
  fail : Form Fail

def Operation.of {Args Reply : Type} [args : Form Args] [reply : Form Reply]
    (p : Procedure Args Reply) : Operation :=
  ⟨p, args, reply⟩

namespace FileOperation

def of {Args Ok Fail : Type} [args : Form Args] [ok : Form Ok] [fail : Form Fail]
    (p : FileProcedure Args Ok Fail) : FileOperation :=
  ⟨p, args, ok, fail⟩

def operation (o : FileOperation) : Operation :=
  have := o.ok
  have := o.fail
  ⟨o.procedure.toProcedure, o.args, inferInstance⟩

def all : List FileOperation :=
  [of Procedures.getAttr, of Procedures.setAttr, of Procedures.lookup, of Procedures.access,
    of Procedures.readLink, of Procedures.read, of Procedures.write, of Procedures.create,
    of Procedures.mkDir, of Procedures.symlink, of Procedures.mkNod, of Procedures.remove,
    of Procedures.rmDir, of Procedures.rename, of Procedures.link, of Procedures.readDir,
    of Procedures.readDirPlus, of Procedures.fsStat, of Procedures.fsInfo,
    of Procedures.pathConf, of Procedures.commit]

def ofName? (name : String) : Option FileOperation := all.find? (·.procedure.name == name)

end FileOperation

namespace Operation

/-- The procedures that take no file handle. -/
def handleless : List Operation :=
  [of Procedures.null, of Procedures.mountNull, of Procedures.mount, of Procedures.unmount,
    of Procedures.portmapNull, of Procedures.getPort]

def all : List Operation := handleless ++ FileOperation.all.map FileOperation.operation

def ofName? (name : String) : Option Operation := all.find? (·.procedure.name == name)

end Operation

end Nfs3.Exchange
