import Mathlib.Tactic.Common

/-!
# Identifiers

The identifier types of `common/rina_ids.h`. Each has all bits set as its wrong value.
-/

namespace RinaSense.Common

abbrev PortId := UInt32

abbrev SeqNum := UInt32

abbrev CepId := UInt8

abbrev QosId := UInt8

abbrev Address := UInt8

abbrev PduType := UInt8

abbrev PduFlags := UInt8

def PORT_ID_WRONG : PortId := -1

def CEP_ID_WRONG : CepId := -1

def ADDRESS_WRONG : Address := -1

def QOS_ID_WRONG : QosId := -1

def is_port_id_ok (id : PortId) : Bool := id != PORT_ID_WRONG

def is_cep_id_ok (id : CepId) : Bool := id != CEP_ID_WRONG

def is_address_ok (address : Address) : Bool := address != ADDRESS_WRONG

def is_qos_id_ok (id : QosId) : Bool := id != QOS_ID_WRONG

end RinaSense.Common
